import CoreLab.ScriptLifecycle
import Mathlib.Data.List.DropRight

/-!
# CoreLab.LogTail

The log tail of a reservation after any sequence of output chunks: the last
`SCRIPT_LOG_TAIL_MAX_CHARS` characters of what was sent, in a column that is
bounded in bytes.

* `isTail_handleChunks` — the tail and its flag are those of the whole output;
* `fitsText_rtake_iff` — a cut tail never fits the column;
* `bounded_iff` — the outputs whose tail fits after each chunk.
-/

namespace CoreLab

open Relational

namespace LogTail

/-! ## what is promised -/

/-- What a MySQL `TEXT` column holds, in bytes of its `utf8mb4` encoding. -/
def textColumnMaxBytes : Nat := 65535

def FitsText (s : String) : Prop := s.utf8ByteSize ≤ textColumnMaxBytes

/-- The handler on one chunk after another. -/
def handleChunks (db : Db) (ps : List ScriptOutputChunkEvent) : Db :=
  ps.foldl onScriptOutputChunk db

/-- What the chunks say that the script of a reservation has written. -/
def output (id : Nat) (ps : List ScriptOutputChunkEvent) : List Char :=
  ps.flatMap fun p => if p.reservationId = (id : Int) then p.text.toList else []

/-- The stored text of a row; `NULL` is the empty one. -/
def tailText (r : Reservation) : String := r.scriptLogTailText.getD ""

/-- The tail of a row is the end of `out`, and flagged when it is not all of it. -/
structure IsTail (r : Reservation) (out : List Char) : Prop where
  text : (tailText r).toList = out.rtake scriptLogTailMaxChars
  truncated : r.scriptLogTailTruncated = true ↔ scriptLogTailMaxChars < out.length

/-- After each chunk the row has the tail of the output so far, in a text that fits. -/
def Bounded (db : Db) (id : Nat) (ps : List ScriptOutputChunkEvent) : Prop :=
  ∀ qs, qs <+: ps → ∃ r, (handleChunks db qs).reservations.get? id = some r ∧
    IsTail r (output id qs) ∧ FitsText (tailText r)

/-! ## the end of a list -/

/-- A list can be cut before more is appended. -/
theorem rtake_append_rtake {α : Type} (n : Nat) (a b : List α) :
    (a.rtake n ++ b).rtake n = (a ++ b).rtake n := by
  simp [List.rtake_eq_reverse_take_reverse, List.take_append, List.take_take]

theorem rtake_of_length_le {α : Type} {n : Nat} {l : List α} (h : l.length ≤ n) :
    l.rtake n = l := by
  simp [List.rtake, Nat.sub_eq_zero_of_le h]

theorem length_rtake {α : Type} (n : Nat) (l : List α) : (l.rtake n).length = min n l.length := by
  simp only [List.rtake, List.length_drop]
  omega

/-! ## bytes -/

/-- The bytes of a text. -/
def byteSize (l : List Char) : Nat := (String.ofList l).utf8ByteSize

@[simp] theorem byteSize_append (a b : List Char) : byteSize (a ++ b) = byteSize a + byteSize b := by
  simp [byteSize, String.ofList_append, String.utf8ByteSize_append]

theorem byteSize_cons (c : Char) (l : List Char) : byteSize (c :: l) = c.utf8Size + byteSize l := by
  rw [← List.singleton_append, byteSize_append]
  simp [byteSize]

/-- A character takes a byte at least. -/
theorem length_le_byteSize (l : List Char) : l.length ≤ byteSize l := by
  induction l with
  | nil => simp
  | cons c l ih =>
      have hc := c.utf8Size_pos
      rw [List.length_cons, byteSize_cons]
      omega

theorem byteSize_rtake_le (n : Nat) (l : List Char) : byteSize (l.rtake n) ≤ byteSize l := by
  have h := byteSize_append (l.take (l.length - n)) (l.rtake n)
  rw [List.rtake, List.take_append_drop] at h
  rw [List.rtake]
  omega

/-- **The tail of an output fits** exactly when the whole output does: a tail that was cut
has more characters than the column has bytes. -/
theorem fitsText_rtake_iff (out : List Char) :
    byteSize (out.rtake scriptLogTailMaxChars) ≤ textColumnMaxBytes ↔
      byteSize out ≤ textColumnMaxBytes := by
  refine ⟨fun h => ?_, fun h => (byteSize_rtake_le _ out).trans h⟩
  by_cases hlen : out.length ≤ scriptLogTailMaxChars
  · rwa [rtake_of_length_le hlen] at h
  · have hcut := length_le_byteSize (out.rtake scriptLogTailMaxChars)
    rw [length_rtake] at hcut
    simp only [scriptLogTailMaxChars, textColumnMaxBytes] at hlen hcut h
    omega

/-! ## one chunk -/

theorem isTail_empty {r : Reservation} (htext : tailText r = "")
    (hflag : r.scriptLogTailTruncated = false) : IsTail r [] :=
  ⟨by simp [htext], by simp [hflag]⟩

/-- The row with another tail. -/
def withTail (r : Reservation) (tail : List Char) (truncated : Bool) : Reservation :=
  { r with scriptLogTailText := some (String.ofList tail), scriptLogTailTruncated := truncated }

@[simp] theorem tailText_withTail (r : Reservation) (tail : List Char) (truncated : Bool) :
    (tailText (withTail r tail truncated)).toList = tail := String.toList_ofList

/-- What a chunk that is not empty writes. -/
theorem appendScriptLogTail_eq (db : Db) (r : Reservation) {text : String} (h : text ≠ "") :
    appendScriptLogTail db r text =
      db.write (withTail r (((tailText r).toList ++ text.toList).rtake scriptLogTailMaxChars)
        (r.scriptLogTailTruncated ||
          decide (scriptLogTailMaxChars < ((tailText r).toList ++ text.toList).length))) [] := by
  rw [appendScriptLogTail, if_neg h]
  dsimp only
  split
  · next hlong =>
      rw [← tailText] at hlong
      rw [decide_eq_true hlong, Bool.or_true]
      rfl
  · next hshort =>
      rw [← tailText] at hshort
      rw [rtake_of_length_le (Nat.le_of_not_lt hshort), decide_eq_false hshort, Bool.or_false]
      rfl

/-- **A chunk** takes the row from the tail of an output to that of the longer one. -/
theorem isTail_appendScriptLogTail {db : Db} {r : Reservation} {out : List Char}
    (hr : db.reservations.get? r.id = some r) (h : IsTail r out) (text : String) :
    ∃ r', (appendScriptLogTail db r text).reservations.get? r.id = some r' ∧
      IsTail r' (out ++ text.toList) := by
  by_cases htext : text = ""
  · subst htext
    exact ⟨r, by simp [appendScriptLogTail, hr], by simpa using h⟩
  · have hwritten := appendScriptLogTail_eq db r htext
    have hkept (tail : List Char) (truncated : Bool) :
        db.reservations.get? (withTail r tail truncated).id = some r := hr
    rw [hwritten, Db.reservations_write]
    refine ⟨_, Table.get?_put_self (hkept _ _), ?_, ?_⟩
    · rw [tailText_withTail, h.text, rtake_append_rtake]
    · -- the text was cut before, or is cut now
      have htruncated := h.truncated
      simp only [withTail, h.text, Bool.or_eq_true, decide_eq_true_eq, htruncated,
        List.length_append, length_rtake]
      omega

/-- A chunk of another reservation leaves the row alone. -/
theorem get?_onScriptOutputChunk_ne {db : Db} {id : Nat} {p : ScriptOutputChunkEvent}
    (h : p.reservationId ≠ (id : Int)) :
    (onScriptOutputChunk db p).reservations.get? id = db.reservations.get? id := by
  rcases onScriptOutputChunk_cases db p with heq | ⟨row, row', hrow, -, booking, -, -, heq⟩
  · rw [heq]
  · have hid : row'.id ≠ id := by
      have hfound := (findReservation_eq_some hrow).1
      rw [booking.id]
      grind
    rw [heq, Db.reservations_write, Table.get?_put_ne hid]

theorem isTail_onScriptOutputChunk {db : Db} {id : Nat} {r : Reservation} {out : List Char}
    (hr : db.reservations.get? id = some r) (h : IsTail r out) (p : ScriptOutputChunkEvent) :
    ∃ r', (onScriptOutputChunk db p).reservations.get? id = some r' ∧
      IsTail r' (out ++ output id [p]) := by
  by_cases hp : p.reservationId = (id : Int)
  · have hid : r.id = id := Table.key_of_get? hr
    subst hid
    have hfind : findReservation db p.reservationId = some r := by
      rw [hp]
      simpa [findReservation] using hr
    have houtput : output r.id [p] = p.text.toList := by simp [output, hp]
    rw [onScriptOutputChunk, hfind, houtput]
    exact isTail_appendScriptLogTail hr h p.text
  · have houtput : output id [p] = [] := by simp [output, hp]
    rw [get?_onScriptOutputChunk_ne hp, houtput, List.append_nil]
    exact ⟨r, hr, h⟩

/-! ## all chunks -/

/-- **The tail and its flag** are those of the whole output, for any sequence of chunks. -/
theorem isTail_handleChunks {db : Db} {id : Nat} {r : Reservation} {out : List Char}
    (hr : db.reservations.get? id = some r) (h : IsTail r out) (ps : List ScriptOutputChunkEvent) :
    ∃ r', (handleChunks db ps).reservations.get? id = some r' ∧ IsTail r' (out ++ output id ps) := by
  induction ps generalizing db r out with
  | nil => exact ⟨r, hr, by simpa [output] using h⟩
  | cons p ps ih =>
      obtain ⟨r', hr', h'⟩ := isTail_onScriptOutputChunk hr h p
      obtain ⟨r'', hr'', h''⟩ := ih hr' h'
      refine ⟨r'', hr'', ?_⟩
      have houtput : output id (p :: ps) = output id [p] ++ output id ps := by simp [output]
      rwa [houtput, ← List.append_assoc]

theorem fitsText_iff {r : Reservation} {out : List Char} (h : IsTail r out) :
    FitsText (tailText r) ↔ byteSize out ≤ textColumnMaxBytes := by
  rw [← fitsText_rtake_iff, ← h.text, byteSize, String.ofList_toList]
  rfl

theorem byteSize_output_le {id : Nat} {qs ps : List ScriptOutputChunkEvent} (h : qs <+: ps) :
    byteSize (output id qs) ≤ byteSize (output id ps) := by
  obtain ⟨rest, rfl⟩ := h
  simp [output]

/-- A row whose script has written nothing yet. -/
structure Fresh (db : Db) (id : Nat) (r : Reservation) : Prop where
  stored : db.reservations.get? id = some r
  text : tailText r = ""
  whole : r.scriptLogTailTruncated = false

theorem not_bounded_of_long {db : Db} {id : Nat} {ps : List ScriptOutputChunkEvent}
    (hlong : textColumnMaxBytes < byteSize (output id ps)) :
    ¬ Bounded db id ps := by
  intro h
  obtain ⟨r', -, htail, hfits⟩ := h ps (List.prefix_refl ps)
  have hshort := (fitsText_iff htail).mp hfits
  omega

/-- **The log tail is as promised** after each chunk exactly when the whole output of the
script has at most as many bytes as the column; nothing is ever cut then. -/
theorem bounded_iff {db : Db} {id : Nat} {r : Reservation} (hr : Fresh db id r)
    (ps : List ScriptOutputChunkEvent) :
    Bounded db id ps ↔ byteSize (output id ps) ≤ textColumnMaxBytes := by
  refine ⟨fun h => ?_, fun h qs hqs => ?_⟩
  · by_contra hlong
    exact not_bounded_of_long (Nat.lt_of_not_le hlong) h
  · obtain ⟨r', hr', htail⟩ := isTail_handleChunks hr.stored (isTail_empty hr.text hr.whole) qs
    rw [List.nil_append] at htail
    exact ⟨r', hr', htail, (fitsText_iff htail).mpr ((byteSize_output_le hqs).trans h)⟩

/-- Three chunks, one of them empty, beside one of another script. -/
theorem bounded_hello : Bounded (smallLab (.single dueScript)) 7
    [{ reservationId := 7, text := "hello\n" }, { reservationId := 7, text := "" },
      { reservationId := 8, text := "epoch 1\n" }, { reservationId := 7, text := "grüße\n" }] :=
  (bounded_iff ⟨rfl, rfl, rfl⟩ _).mpr (by decide)

/-- One chunk of 65,536 ASCII characters. -/
theorem not_bounded : ¬ ∀ (db : Db) (id : Nat) (r : Reservation)
    (ps : List ScriptOutputChunkEvent), Fresh db id r → Bounded db id ps := by
  intro hall
  let chunk : ScriptOutputChunkEvent :=
    { reservationId := 7, text := String.ofList (List.replicate scriptLogTailMaxChars 'a') }
  have hfresh : Fresh (smallLab (.single dueScript)) 7 dueScript := ⟨rfl, rfl, rfl⟩
  refine not_bounded_of_long ?_ (hall _ _ _ [chunk] hfresh)
  have hlength := length_le_byteSize (output 7 [chunk])
  have houtput : output 7 [chunk] = List.replicate scriptLogTailMaxChars 'a' := by
    simp [output, chunk]
  rw [houtput, List.length_replicate, scriptLogTailMaxChars] at hlength
  rw [houtput, textColumnMaxBytes, scriptLogTailMaxChars]
  omega

end LogTail

end CoreLab
