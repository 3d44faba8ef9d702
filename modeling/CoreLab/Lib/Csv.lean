import CoreLab.Lib.Lines
import CoreLab.Lib.Loops

/-!
# Lib.Csv

The reader of Python's `csv` module with `skipinitialspace`, character by character: a
quote at the start of a field opens a quoted field, which may run over line ends, and a
carriage return within a line is an error.

* `csvRows` — the rows with a cell that is not blank;
* `csvRows_eq_ok_iff` — a text without quotes at the start of a field is its lines, cut at
  the commas, if each of them can be read.
-/

namespace Csv

open Lines

/-- A field, and the fields of a record. -/
abbrev Field := List Char

abbrev Record := List Field

/-- The states of the reader. -/
inductive Mode
  | startRecord | startField | inField | inQuotedField | quoteInQuotedField | eatCrnl
deriving DecidableEq, Repr

/-- `csv.Error`. -/
inductive Error
  | fieldLimit | newLine
deriving DecidableEq, Repr

structure Reader where
  mode : Mode
  field : Field
  fields : Record

namespace Reader

/-- At the start of a record. -/
def start : Reader := ⟨.startRecord, [], []⟩

/-- `csv.field_size_limit`. -/
def fieldSizeLimit : Nat := 131072

/-- `parse_add_char`. -/
def addChar (r : Reader) (mode : Mode) (c : Char) : Except Error Reader :=
  if r.field.length < fieldSizeLimit then .ok ⟨mode, r.field ++ [c], r.fields⟩
  else .error .fieldLimit

/-- `parse_save_field`. -/
def saveField (r : Reader) (mode : Mode) : Reader := ⟨mode, [], r.fields ++ [r.field]⟩

def isNewline (c : Char) : Bool := c = '\n' || c = '\r'

/-- A character where a field may start. -/
def startFieldChar (r : Reader) (c : Char) : Except Error Reader :=
  if isNewline c then .ok (r.saveField .eatCrnl)
  else if c = '"' then .ok { r with mode := .inQuotedField }
  else if c = ' ' then .ok { r with mode := .startField }
  else if c = ',' then .ok (r.saveField .startField)
  else r.addChar .inField c

/-- `parse_process_char`. -/
def char (r : Reader) (c : Char) : Except Error Reader :=
  match r.mode with
  | .startRecord =>
      if isNewline c then .ok { r with mode := .eatCrnl } else r.startFieldChar c
  | .startField => r.startFieldChar c
  | .inField =>
      if isNewline c then .ok (r.saveField .eatCrnl)
      else if c = ',' then .ok (r.saveField .startField)
      else r.addChar .inField c
  | .inQuotedField =>
      if c = '"' then .ok { r with mode := .quoteInQuotedField }
      else r.addChar .inQuotedField c
  | .quoteInQuotedField =>
      if c = '"' then r.addChar .inQuotedField c
      else if c = ',' then .ok (r.saveField .startField)
      else if isNewline c then .ok (r.saveField .eatCrnl)
      else r.addChar .inField c
  | .eatCrnl => if isNewline c then .ok r else .error .newLine

/-- `parse_process_char` at the end of a line. -/
def endLine (r : Reader) : Reader :=
  match r.mode with
  | .startRecord | .inQuotedField => r
  | .startField | .inField | .quoteInQuotedField => r.saveField .startRecord
  | .eatCrnl => { r with mode := .startRecord }

end Reader

/-- The lines of a text, each with its end. -/
def readlines : List Char → List Line
  | [] => []
  | c :: cs =>
      if c = '\n' then [c] :: readlines cs
      else match readlines cs with
        | [] => [[c]]
        | line :: lines => (c :: line) :: lines

/-- The records from here on: a record goes on where a quoted field does. -/
def readFrom (r : Reader) : List Line → Except Error (List Record)
  | [] =>
      .ok (if r.field ≠ [] ∨ r.mode = .inQuotedField then [(r.saveField .startRecord).fields]
        else [])
  | line :: lines => do
      let next ← line.foldlM Reader.char r
      if next.endLine.mode = .startRecord then
        let rest ← readFrom .start lines
        return next.endLine.fields :: rest
      else readFrom next.endLine lines

/-- `csv.reader`. -/
def reader (text : List Char) : Except Error (List Record) := readFrom .start (readlines text)

/-- Some cell is not blank. -/
def notBlank (row : Record) : Bool := row.any (· ≠ [])

/-- The stripped rows that are not blank. -/
def csvRows (text : List Char) : Except Error (List Record) :=
  (reader text).map fun records => (records.map (·.map strip)).filter notBlank

/-! ## texts without quoted fields -/

/-- A line cut at its commas. -/
def cells (line : Line) : Record := line.splitOnP (· = ',')

/-- The field starts with a quote. -/
def Quoted (field : Field) : Prop := (field.dropWhile (· = ' ')).head? = some '"'

instance (field : Field) : Decidable (Quoted field) := inferInstanceAs (Decidable (_ = _))

/-- No field of the line is quoted. -/
def Unquoted (line : Line) : Prop := ∀ field ∈ cells line, ¬ Quoted field

/-- A field, with the spaces that the reader leaves away. -/
def Fits (field : Field) : Prop := (field.dropWhile (· = ' ')).length ≤ Reader.fieldSizeLimit

instance (line : Line) : Decidable (Unquoted line) := inferInstanceAs (Decidable (∀ _ ∈ _, _))

instance (field : Field) : Decidable (Fits field) := inferInstanceAs (Decidable (_ ≤ _))

/-- What stands before the first end of line. -/
def body (line : Line) : Line := line.takeWhile fun c => !Reader.isNewline c

/-- Carriage returns are at the end of the line only, and no field is too long. -/
structure Readable (line : Line) : Prop where
  ending : ∀ c ∈ line.dropWhile (fun c => !Reader.isNewline c), Reader.isNewline c = true
  fits : ∀ field ∈ cells (body line), Fits field

instance (line : Line) : Decidable (Readable line) :=
  letI : Decidable (∀ c ∈ line.dropWhile (fun c => !Reader.isNewline c), Reader.isNewline c = true) :=
    List.decidableBAll _ _
  decidable_of_iff (_ ∧ _) ⟨fun h => ⟨h.1, h.2⟩, fun h => ⟨h.1, h.2⟩⟩

theorem strip_cons_space (l : Line) : strip (' ' :: l) = strip l := by
  rw [strip, List.dropWhile_cons_of_pos (by decide), strip]

theorem strip_append_newlines (l : Line) {ending : Line}
    (h : ∀ c ∈ ending, Reader.isNewline c = true) : strip (l ++ ending) = strip l := by
  induction ending using List.reverseRecOn with
  | nil => rw [List.append_nil]
  | append_singleton ending c ih =>
      have hspace : isSpace c = true := by
        have hc := h c (by simp)
        simp only [Reader.isNewline, Bool.or_eq_true, decide_eq_true_eq] at hc
        rcases hc with rfl | rfl <;> decide
      rw [← ih fun d hd => h d (List.mem_append_left _ hd), ← List.append_assoc, strip, strip,
        List.dropWhile_append]
      split
      · next hempty =>
          rw [List.isEmpty_iff.mp hempty, List.dropWhile_cons_of_pos hspace, List.dropWhile_nil]
      · rw [List.rdropWhile_concat_pos _ _ _ hspace]

theorem cells_cons_comma (l : Line) : cells (',' :: l) = [] :: cells l := by
  rw [cells, List.splitOnP_cons_eq_if_modifyHead, if_pos (by decide), cells]

theorem cells_cons {c : Char} (hc : c ≠ ',') (l : Line) :
    cells (c :: l) = (cells l).modifyHead (c :: ·) := by
  rw [cells, List.splitOnP_cons_eq_if_modifyHead, if_neg (by simpa using hc), cells]

theorem quoted_cons_space (field : Field) : Quoted (' ' :: field) ↔ Quoted field := by
  rw [Quoted, List.dropWhile_cons_of_pos (by decide), Quoted]

/-- The fields of a line whose first part the reader has. -/
def pending (r : Reader) (rest : Line) : Record := (cells rest).modifyHead (r.field ++ ·)

theorem modifyHead_nil_append (fields : Record) : fields.modifyHead ([] ++ ·) = fields := by
  cases fields <;> rfl

theorem pending_comma (r : Reader) (rest : Line) :
    pending r (',' :: rest) = r.field :: cells rest := by
  rw [pending, cells_cons_comma, List.modifyHead_cons, List.append_nil]

theorem pending_cons {r next : Reader} {c : Char} (hc : c ≠ ',')
    (hfield : next.field = r.field ++ [c]) (rest : Line) :
    pending r (c :: rest) = pending next rest := by
  rw [pending, cells_cons hc, List.modifyHead_modifyHead, pending, hfield]
  congr 1
  funext l
  simp

/-- The reader is in a line, and not in a quoted field. -/
def Reader.Unquoted (r : Reader) : Prop :=
  r.mode = .startField ∧ r.field = [] ∨ r.mode = .inField ∧ ∃ c cs, c ≠ ' ' ∧ r.field = c :: cs

theorem char_comma {r : Reader} (h : r.Unquoted) : r.char ',' = .ok (r.saveField .startField) := by
  rcases h with ⟨hmode, -⟩ | ⟨hmode, -⟩ <;> rw [Reader.char, hmode] <;> rfl

theorem char_newline {r : Reader} {c : Char} (h : r.Unquoted) (hc : Reader.isNewline c = true) :
    r.char c = .ok (r.saveField .eatCrnl) := by
  rcases h with ⟨hmode, -⟩ | ⟨hmode, -⟩
  · rw [Reader.char, hmode]
    simp only [Reader.startFieldChar, hc, if_true]
  · rw [Reader.char, hmode]
    simp only [hc, if_true]

theorem endLine_unquoted {r : Reader} (h : r.Unquoted) : r.endLine = r.saveField .startRecord := by
  rcases h with ⟨hmode, -⟩ | ⟨hmode, -⟩ <;> rw [Reader.endLine, hmode]

/-- Any other character belongs to the field, at whose start it is no quote and no space. -/
theorem char_other {r : Reader} {c : Char} (h : r.Unquoted) (hnewline : Reader.isNewline c = false)
    (hcomma : c ≠ ',') (hstart : r.mode = .startField → c ≠ '"' ∧ c ≠ ' ') :
    r.char c = r.addChar .inField c := by
  rcases h with ⟨hmode, -⟩ | ⟨hmode, -⟩
  · obtain ⟨hq, hs⟩ := hstart hmode
    simp only [Reader.char, hmode, Reader.startFieldChar, hnewline, hq, hs, hcomma, if_false,
      Bool.false_eq_true]
  · simp only [Reader.char, hmode, hnewline, hcomma, if_false, Bool.false_eq_true]

theorem exists_cells (l : Line) : ∃ first others, cells l = first :: others :=
  List.exists_cons_of_ne_nil (List.splitOnP_ne_nil (· = ',') l)

/-- A space before a field belongs to it. -/
theorem pending_space {r : Reader} (hfield : r.field = []) (rest : Line) : ∃ first others,
    pending r rest = first :: others ∧ pending r (' ' :: rest) = (' ' :: first) :: others := by
  obtain ⟨first, others, hcells⟩ := exists_cells rest
  refine ⟨first, others, ?_, ?_⟩
  · rw [pending, hfield, modifyHead_nil_append, hcells]
  · rw [pending, hfield, modifyHead_nil_append, cells_cons (by decide), hcells, List.modifyHead_cons]

theorem fits_cons_space (field : Field) : Fits (' ' :: field) ↔ Fits field := by
  rw [Fits, List.dropWhile_cons_of_pos (by decide), Fits]

theorem fits_of_length {field : Field} (h : field.length ≤ Reader.fieldSizeLimit) : Fits field :=
  (List.length_dropWhile_le ..).trans h

/-- What the reader makes of the rest of a line without quoted fields: the fields that are
pending, unless one of them is too long. -/
def Reads (r : Reader) (rest : Line) : Prop :=
  (∀ field ∈ pending r rest, Fits field) ∧
      (∃ next, rest.foldlM Reader.char r = .ok next ∧ next.Unquoted ∧
        (next.fields ++ [next.field]).map strip =
          r.fields.map strip ++ (pending r rest).map strip) ∨
    (¬ ∀ field ∈ pending r rest, Fits field) ∧ ∃ e, rest.foldlM Reader.char r = .error e

/-- The field ends. -/
theorem reads_comma {r : Reader} {rest : Line} (h : r.Unquoted)
    (hroom : r.field.length ≤ Reader.fieldSizeLimit) (ih : Reads (r.saveField .startField) rest) :
    Reads r (',' :: rest) := by
  have hpending : pending (r.saveField .startField) rest = cells rest := modifyHead_nil_append _
  have hread : (',' :: rest).foldlM Reader.char r =
      rest.foldlM Reader.char (r.saveField .startField) := by
    rw [List.foldlM_cons, char_comma h]
    rfl
  unfold Reads at ih ⊢
  rw [hpending] at ih
  rw [pending_comma, List.forall_mem_cons, hread]
  rcases ih with ⟨hfits, next, hnext, hunquoted, hfields⟩ | ⟨hlong, hfails⟩
  · refine .inl ⟨⟨fits_of_length hroom, hfits⟩, next, hnext, hunquoted, ?_⟩
    rw [hfields]
    simp [Reader.saveField]
  · exact .inr ⟨fun hfits => hlong hfits.2, hfails⟩

/-- A space at the start of a field is left away. -/
theorem reads_space {r : Reader} {rest : Line} (hmode : r.mode = .startField) (hfield : r.field = [])
    (ih : Reads r rest) : Reads r (' ' :: rest) := by
  obtain ⟨first, others, hpending, hspaced⟩ := pending_space hfield rest
  have hread : (' ' :: rest).foldlM Reader.char r = rest.foldlM Reader.char r := by
    obtain ⟨mode, field, fields⟩ := r
    obtain rfl := hmode
    rfl
  unfold Reads at ih ⊢
  rw [hpending, List.forall_mem_cons] at ih
  rw [hspaced, List.forall_mem_cons, hread, fits_cons_space]
  rwa [List.map_cons, strip_cons_space, ← List.map_cons]

/-- A character of the field, which may be one too many. -/
theorem reads_other {r : Reader} {c : Char} {rest : Line} (h : r.Unquoted) (hcomma : c ≠ ',')
    (hchar : r.char c = r.addChar .inField c)
    (ih : r.field.length < Reader.fieldSizeLimit → Reads ⟨.inField, r.field ++ [c], r.fields⟩ rest) :
    Reads r (c :: rest) := by
  have hpending : pending r (c :: rest) =
      pending ⟨.inField, r.field ++ [c], r.fields⟩ rest := pending_cons hcomma rfl rest
  unfold Reads
  rw [hpending, List.foldlM_cons, hchar, Reader.addChar]
  by_cases hlt : r.field.length < Reader.fieldSizeLimit
  · rw [if_pos hlt]
    exact ih hlt
  · rw [if_neg hlt]
    obtain ⟨first, others, hcells⟩ := exists_cells rest
    refine .inr ⟨fun hfits => ?_, .fieldLimit, rfl⟩
    have hlong : Fits (r.field ++ [c] ++ first) := hfits _ (by
      rw [pending, hcells, List.modifyHead_cons]
      exact List.mem_cons_self)
    have hlimit : 0 < Reader.fieldSizeLimit := by decide
    rcases h with ⟨-, hfield⟩ | ⟨-, d, ds, hd, hfield⟩
    · rw [hfield] at hlt
      exact absurd hlimit hlt
    · rw [Fits, hfield, List.cons_append, List.cons_append,
        List.dropWhile_cons_of_neg (by simpa using hd)] at hlong
      rw [hfield] at hlt
      simp only [List.length_cons, List.length_append] at hlong hlt
      omega

/-- **Within a line** that quotes no field, the reader cuts at the commas, as long as the
fields fit. -/
theorem reads_unquoted {rest : Line} {r : Reader} (h : r.Unquoted)
    (hnewline : ∀ c ∈ rest, Reader.isNewline c = false)
    (hquote : ∀ field ∈ pending r rest, ¬ Quoted field)
    (hroom : r.field.length ≤ Reader.fieldSizeLimit) : Reads r rest := by
  induction rest generalizing r with
  | nil =>
      have hpending : pending r [] = [r.field] := by simp [pending, cells, List.splitOnP_nil]
      refine .inl ⟨?_, r, rfl, h, by rw [hpending, List.map_append]⟩
      rw [hpending, List.forall_mem_singleton]
      exact fits_of_length hroom
  | cons c rest ih =>
      have hrest : ∀ d ∈ rest, Reader.isNewline d = false := fun d hd =>
        hnewline d (List.mem_cons_of_mem c hd)
      by_cases hcomma : c = ','
      · subst hcomma
        rw [pending_comma] at hquote
        refine reads_comma h hroom (ih (.inl ⟨rfl, rfl⟩) hrest ?_ (Nat.zero_le _))
        rw [show pending (r.saveField .startField) rest = cells rest from modifyHead_nil_append _]
        exact fun field hf => hquote field (List.mem_cons_of_mem _ hf)
      · by_cases hspace : c = ' ' ∧ r.mode = .startField ∧ r.field = []
        · obtain ⟨rfl, hmode, hfield⟩ := hspace
          obtain ⟨first, others, hpending, hspaced⟩ := pending_space hfield rest
          refine reads_space hmode hfield (ih h hrest ?_ hroom)
          rw [hspaced, List.forall_mem_cons, quoted_cons_space] at hquote
          rwa [hpending, List.forall_mem_cons]
        · have hfield : r.mode = .startField → r.field = [] := by
            intro hmode
            rcases h with ⟨-, hfield⟩ | ⟨hin, -⟩
            · exact hfield
            · rw [hmode] at hin
              cases hin
          have hstart : r.mode = .startField → c ≠ '"' ∧ c ≠ ' ' := by
            refine fun hmode => ⟨?_, fun hs => hspace ⟨hs, hmode, hfield hmode⟩⟩
            rintro rfl
            obtain ⟨first, others, hcells⟩ := exists_cells rest
            refine hquote ('"' :: first) ?_ (by simp [Quoted])
            rw [pending, hfield hmode, modifyHead_nil_append, cells_cons hcomma, hcells]
            exact List.mem_cons_self
          have hnil : r.field = [] → c ≠ ' ' := by
            intro hnil
            rcases h with ⟨hmode, -⟩ | ⟨-, d, ds, -, hcons⟩
            · exact (hstart hmode).2
            · rw [hnil] at hcons
              cases hcons
          have hpending : pending r (c :: rest) =
              pending ⟨.inField, r.field ++ [c], r.fields⟩ rest := pending_cons hcomma rfl rest
          refine reads_other h hcomma (char_other h (hnewline c List.mem_cons_self) hcomma hstart)
            fun hlt => ih (.inr ⟨rfl, ?_⟩) hrest (hpending ▸ hquote) ?_
          · show ∃ d ds, d ≠ ' ' ∧ r.field ++ [c] = d :: ds
            cases hr : r.field with
            | nil => exact ⟨c, [], hnil hr, rfl⟩
            | cons d ds =>
                rcases h with ⟨-, hfield⟩ | ⟨-, e, es, he, hcons⟩
                · rw [hr] at hfield
                  cases hfield
                · rw [hr] at hcons
                  exact ⟨d, ds ++ [c], (List.cons.inj hcons).1 ▸ he, rfl⟩
          · simp only [List.length_append, List.length_singleton]
            omega

/-! ## lines -/

/-- A line cut in two is cut at the commas of both. -/
theorem cells_append (a b : Line) : ∃ init last first others,
    cells a = init ++ [last] ∧ cells b = first :: others ∧
      cells (a ++ b) = init ++ (last ++ first) :: others := by
  induction a with
  | nil =>
      obtain ⟨first, others, hcells⟩ := exists_cells b
      exact ⟨[], [], first, others, rfl, hcells, hcells⟩
  | cons c a ih =>
      obtain ⟨init, last, first, others, ha, hb, hab⟩ := ih
      by_cases hc : c = ','
      · refine ⟨[] :: init, last, first, others, ?_, hb, ?_⟩
        · rw [hc, cells_cons_comma, ha, List.cons_append]
        · rw [hc, List.cons_append, cells_cons_comma, hab, List.cons_append]
      · rw [List.cons_append, cells_cons hc, cells_cons hc, ha, hab]
        cases init with
        | nil => exact ⟨[], c :: last, first, others, rfl, hb, rfl⟩
        | cons cell init => exact ⟨(c :: cell) :: init, last, first, others, rfl, hb, rfl⟩

theorem quoted_append {field : Field} (h : Quoted field) (rest : Field) : Quoted (field ++ rest) := by
  rw [Quoted, List.dropWhile_append]
  split
  · next hempty => rw [Quoted, List.isEmpty_iff.mp hempty] at h; cases h
  · rw [List.head?_append, show (field.dropWhile (· = ' ')).head? = some '"' from h]
    rfl

/-- The front of an unquoted line is unquoted. -/
theorem Unquoted.of_append {a b : Line} (h : Unquoted (a ++ b)) : Unquoted a := by
  obtain ⟨init, last, first, others, ha, -, hab⟩ := cells_append a b
  unfold Unquoted at h ⊢
  rw [hab] at h
  rw [ha]
  intro field hfield hq
  rcases List.mem_append.mp hfield with hinit | hlast
  · exact h field (List.mem_append_left _ hinit) hq
  · obtain rfl := List.mem_singleton.mp hlast
    exact h (field ++ first) (by simp) (quoted_append hq first)

/-- The end of a line belongs to its last cell. -/
theorem map_strip_cells_append (a : Line) {ending : Line}
    (h : ∀ c ∈ ending, Reader.isNewline c = true) :
    (cells (a ++ ending)).map strip = (cells a).map strip := by
  have hsingle : cells ending = [ending] := List.splitOnP_eq_singleton fun c hc => by
    have hnewline := h c hc
    simp only [Reader.isNewline, Bool.or_eq_true, decide_eq_true_eq] at hnewline
    rcases hnewline with rfl | rfl <;> decide
  obtain ⟨init, last, first, others, ha, hb, hab⟩ := cells_append a ending
  obtain ⟨rfl, rfl⟩ := List.cons.inj (hsingle.symm.trans hb)
  rw [ha, hab, List.map_append, List.map_append, List.map_singleton, List.map_singleton,
    strip_append_newlines last h]

/-- After the end of a line only its ends are read. -/
theorem foldlM_eatCrnl {r : Reader} (hmode : r.mode = .eatCrnl) (ending : Line) :
    (∀ c ∈ ending, Reader.isNewline c = true) ∧ ending.foldlM Reader.char r = .ok r ∨
      (¬ ∀ c ∈ ending, Reader.isNewline c = true) ∧
        ∃ e, ending.foldlM Reader.char r = .error e := by
  induction ending with
  | nil => exact .inl ⟨by simp, rfl⟩
  | cons c ending ih =>
      have hchar : r.char c = if Reader.isNewline c then .ok r else .error .newLine := by
        rw [Reader.char, hmode]
      rw [List.foldlM_cons, hchar, List.forall_mem_cons]
      cases hc : Reader.isNewline c with
      | true => simpa [bind, Except.bind] using ih
      | false => exact .inr ⟨by simp, .newLine, rfl⟩

/-- The record of a line: its cells, or none where the line is empty. -/
def Records (line : Line) : Prop :=
  Readable line ∧ (∃ next, line.foldlM Reader.char .start = .ok next ∧
      next.endLine.mode = .startRecord ∧
      (next.endLine.fields.map strip = (cells line).map strip ∨
        next.endLine.fields = [] ∧ (cells line).map strip = [[]])) ∨
    ¬ Readable line ∧ ∃ e, line.foldlM Reader.char .start = .error e

/-- The body of a line was read into a reader: its end follows. -/
theorem records_of_body {line : Line} {next : Reader} (hfits : ∀ field ∈ cells (body line), Fits field)
    (hnext : (body line).foldlM Reader.char .start = .ok next)
    (hchar : ∀ c, Reader.isNewline c = true → ∃ fields : Record,
      next.char c = .ok ⟨.eatCrnl, [], fields⟩ ∧
        (fields.map strip = (cells (body line)).map strip ∨
          fields = [] ∧ (cells (body line)).map strip = [[]]))
    (hend : next.endLine.mode = .startRecord ∧
      (next.endLine.fields.map strip = (cells (body line)).map strip ∨
        next.endLine.fields = [] ∧ (cells (body line)).map strip = [[]])) : Records line := by
  have hline : body line ++ line.dropWhile (fun c => !Reader.isNewline c) = line :=
    List.takeWhile_append_dropWhile
  have hread : line.foldlM Reader.char .start =
      (line.dropWhile fun c => !Reader.isNewline c).foldlM Reader.char next := by
    conv_lhs => rw [← hline]
    rw [List.foldlM_append, hnext]
    rfl
  have hcells : (∀ c ∈ line.dropWhile (fun c => !Reader.isNewline c), Reader.isNewline c = true) →
      (cells line).map strip = (cells (body line)).map strip := fun h => by
    conv_lhs => rw [← hline]
    exact map_strip_cells_append _ h
  unfold Records
  rw [hread]
  cases hending : line.dropWhile fun c => !Reader.isNewline c with
  | nil =>
      have hall : ∀ c ∈ line.dropWhile (fun c => !Reader.isNewline c), Reader.isNewline c = true := by
        rw [hending]
        simp
      rw [hcells hall]
      exact .inl ⟨⟨hall, hfits⟩, next, rfl, hend⟩
  | cons c ending =>
      have hc : Reader.isNewline c = true := by
        have hhead := List.head?_dropWhile_not (fun c => !Reader.isNewline c) line
        rw [hending] at hhead
        simpa using hhead
      obtain ⟨fields, hsaved, hfields⟩ := hchar c hc
      have hafter : (c :: ending).foldlM Reader.char next =
          ending.foldlM Reader.char ⟨.eatCrnl, [], fields⟩ := by
        rw [List.foldlM_cons, hsaved]
        rfl
      rw [hafter]
      rcases foldlM_eatCrnl (r := ⟨.eatCrnl, [], fields⟩) rfl ending with ⟨hall, hok⟩ | ⟨hnot, hfails⟩
      · have hnewlines : ∀ c ∈ line.dropWhile (fun c => !Reader.isNewline c),
            Reader.isNewline c = true := by
          rw [hending, List.forall_mem_cons]
          exact ⟨hc, hall⟩
        rw [hcells hnewlines]
        exact .inl ⟨⟨hnewlines, hfits⟩, _, hok, rfl, hfields⟩
      · refine .inr ⟨fun hreadable => hnot ?_, hfails⟩
        have hnewlines := hreadable.ending
        rw [hending, List.forall_mem_cons] at hnewlines
        exact hnewlines.2

/-- **An unquoted line** is a record, if it is readable. -/
theorem records_of_unquoted {line : Line} (h : Unquoted line) : Records line := by
  have hline : body line ++ line.dropWhile (fun c => !Reader.isNewline c) = line :=
    List.takeWhile_append_dropWhile
  have hbody : Unquoted (body line) := by
    rw [← hline] at h
    exact h.of_append
  cases hchars : body line with
  | nil =>
      refine @records_of_body line .start ?_ (by rw [hchars]; rfl) (fun c hc => ?_) ?_
      · rw [hchars]
        decide
      · refine ⟨[], ?_, .inr ⟨rfl, by rw [hchars]; decide⟩⟩
        rw [Reader.char, Reader.start]
        simp only [hc, if_true]
      · exact ⟨rfl, .inr ⟨rfl, by rw [hchars]; decide⟩⟩
  | cons c rest =>
      have hnewline : ∀ d ∈ body line, Reader.isNewline d = false := fun d hd => by
        simpa using List.mem_takeWhile_imp hd
      -- at the start of a record a character is taken as at the start of a field
      have hstart : (body line).foldlM Reader.char .start =
          (body line).foldlM Reader.char ⟨.startField, [], []⟩ := by
        have hc := hnewline c (by rw [hchars]; exact List.mem_cons_self)
        have hchar : Reader.start.char c = Reader.char ⟨.startField, [], []⟩ c := by
          simp only [Reader.char, Reader.start, hc]
          rfl
        rw [hchars, List.foldlM_cons, List.foldlM_cons, hchar]
      have hpending : pending ⟨.startField, [], []⟩ (body line) = cells (body line) :=
        modifyHead_nil_append _
      have hreads := reads_unquoted (.inl ⟨rfl, rfl⟩) hnewline (by rw [hpending]; exact hbody)
        (r := ⟨.startField, [], []⟩) (Nat.zero_le _)
      unfold Reads at hreads
      rw [hpending, List.map_nil, List.nil_append] at hreads
      rcases hreads with ⟨hfits, next, hnext, hunquoted, hfields⟩ | ⟨hlong, e, hfails⟩
      · refine records_of_body hfits (hstart.trans hnext) (fun c hc => ?_) ?_
        · exact ⟨_, char_newline hunquoted hc, .inl hfields⟩
        · rw [endLine_unquoted hunquoted]
          exact ⟨rfl, .inl hfields⟩
      · refine .inr ⟨fun hreadable => hlong hreadable.fits, e, ?_⟩
        rw [← hline, List.foldlM_append, hstart, hfails]
        rfl

/-- **Texts without quoted fields**: the rows are the lines, cut at the commas, that are not
blank, if every line is readable. -/
theorem csvRows_eq_ok_iff {text : List Char} (h : ∀ line ∈ readlines text, Unquoted line)
    {rows : List Record} :
    csvRows text = .ok rows ↔ (∀ line ∈ readlines text, Readable line) ∧
      rows = ((readlines text).map fun line => (cells line).map strip).filter notBlank := by
  have hread : ∀ lines ⊆ readlines text,
      (∀ line ∈ lines, Readable line) ∧ (∃ records, readFrom .start lines = .ok records ∧
        (records.map (·.map strip)).filter notBlank =
          (lines.map fun line => (cells line).map strip).filter notBlank) ∨
      (¬ ∀ line ∈ lines, Readable line) ∧ ∃ e, readFrom .start lines = .error e := by
    intro lines hlines
    induction lines with
    | nil => exact .inl ⟨by simp, [], rfl, rfl⟩
    | cons line lines ih =>
        have hrest := ih fun l hl => hlines (List.mem_cons_of_mem line hl)
        rw [readFrom, List.forall_mem_cons]
        rcases records_of_unquoted (h line (hlines List.mem_cons_self)) with
          ⟨hline, next, hnext, hmode, hfields⟩ | ⟨hline, e, hfails⟩
        · rw [hnext]
          simp only [bind, Except.bind, pure, Except.pure, hmode, if_true]
          rcases hrest with ⟨hall, records, hrecords, hrows⟩ | ⟨hnot, e, hfails⟩
          · refine .inl ⟨⟨hline, hall⟩, next.endLine.fields :: records, by rw [hrecords], ?_⟩
            rw [List.map_cons, List.map_cons, List.filter_cons, List.filter_cons, hrows]
            rcases hfields with hfields | ⟨hnil, hblank⟩
            · rw [hfields]
            · rw [hnil, hblank]
              rfl
          · exact .inr ⟨fun hall => hnot hall.2, e, by rw [hfails]⟩
        · rw [hfails]
          exact .inr ⟨fun hall => hline hall.1, e, rfl⟩
  rw [csvRows, reader]
  rcases hread _ (List.Subset.refl _) with ⟨hall, records, hrecords, hrows⟩ | ⟨hnot, e, hfails⟩
  · rw [hrecords, ← hrows, and_iff_right hall]
    show Except.ok _ = Except.ok rows ↔ _
    rw [Except.ok.injEq]
    exact eq_comm
  · rw [hfails]
    constructor
    · intro hok
      cases hok
    · exact fun hok => absurd hok.1 hnot

end Csv
