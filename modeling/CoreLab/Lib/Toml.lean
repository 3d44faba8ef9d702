import CoreLab.Lib.Lines
import CoreLab.Lib.Parsers
import CoreLab.Lib.TomlDocument

/-!
# Lib.Toml

The text of a TOML document, read as Python's `tomllib` reads it: line by line, where the
value of a line may run over line ends in a multi-line string or an array.

* `loads` — the table of a text;
* `localAt_line` — what is read of a line does not depend on the lines after it;
* `reads_of_items`, `items_of_reads` — so a text falls into the texts of its statements,
  each of which is read by itself.

A number, a date or a time is kept as it is written.
-/

namespace Toml

open Parser Lines

/-! ## characters -/

/-- `TOML_WS`. -/
def isWs (c : Char) : Bool := c = ' ' || c = '\t'

/-- `BARE_KEY_CHARS`. -/
def isBareKey (c : Char) : Bool := c.isAlphanum || c = '-' || c = '_'

/-- `ILLEGAL_BASIC_STR_CHARS`, which are those of comments as well. -/
def illegal (c : Char) : Bool := c.toNat < 32 && c ≠ '\t' || c.toNat = 127

/-! ## numbers, dates and times -/

/-- `(?:_?p)*` at the front. -/
def runLength (p : Char → Bool) : List Char → Nat
  | [] => 0
  | c :: cs =>
      if p c then 1 + runLength p cs
      else if c = '_' then
        match cs with
        | d :: ds => if p d then 2 + runLength p ds else 0
        | [] => 0
      else 0

/-- `p(?:_?p)*` at the front. -/
def digitsLength (p : Char → Bool) : List Char → Option Nat
  | c :: cs => if p c then some (1 + runLength p cs) else none
  | [] => none

def isHexDigit (c : Char) : Bool :=
  c.isDigit || 'a' ≤ c && c ≤ 'f' || 'A' ≤ c && c ≤ 'F'

def signLength : List Char → Nat
  | '+' :: _ | '-' :: _ => 1
  | _ => 0

/-- `0|[1-9](?:_?[0-9])*` at the front. -/
def integerLength : List Char → Option Nat
  | '0' :: _ => some 1
  | c :: cs => if '1' ≤ c ∧ c ≤ '9' then some (1 + runLength Char.isDigit cs) else none
  | [] => none

/-- `(?:\.[0-9](?:_?[0-9])*)?` at the front. -/
def fractionLength : List Char → Nat
  | '.' :: ds => ((digitsLength Char.isDigit ds).map (1 + ·)).getD 0
  | _ => 0

/-- `(?:[eE][+-]?[0-9](?:_?[0-9])*)?` at the front. -/
def exponentLength : List Char → Nat
  | e :: ds =>
      if e = 'e' ∨ e = 'E' then
        ((digitsLength Char.isDigit (ds.drop (signLength ds))).map (1 + signLength ds + ·)).getD 0
      else 0
  | [] => 0

/-- The second part of `RE_NUMBER`; an `int` has at most 4300 digits. -/
def decimalLength (line : List Char) : Option Nat :=
  let body := line.drop (signLength line)
  (integerLength body).bind fun n =>
    let fraction := fractionLength (body.drop n)
    let exponent := exponentLength (body.drop (n + fraction))
    if fraction + exponent = 0 ∧ 4300 < ((body.take n).filter Char.isDigit).length then none
    else some (signLength line + n + fraction + exponent)

/-- The first part of `RE_NUMBER`. -/
def radixLength : List Char → Option Nat
  | '0' :: 'x' :: ds => (digitsLength isHexDigit ds).map (2 + ·)
  | '0' :: 'b' :: ds => (digitsLength (fun c => c = '0' || c = '1') ds).map (2 + ·)
  | '0' :: 'o' :: ds => (digitsLength (fun c => '0' ≤ c && c ≤ '7') ds).map (2 + ·)
  | _ => none

def numberLength (line : List Char) : Option Nat := (radixLength line).or (decimalLength line)

/-- `[01][0-9]|2[0-3]`. -/
def isHour (a b : Char) : Bool :=
  (a = '0' || a = '1') && b.isDigit || a = '2' && ('0' ≤ b && b ≤ '3')

/-- `[0-5][0-9]`. -/
def isMinute (a b : Char) : Bool := '0' ≤ a && a ≤ '5' && b.isDigit

/-- `(?:\.([0-9]{1,6})[0-9]*)?` at the front. -/
def secondsFraction : List Char → Nat
  | '.' :: ds =>
      if (ds.takeWhile Char.isDigit).length = 0 then 0
      else 1 + (ds.takeWhile Char.isDigit).length
  | _ => 0

/-- `RE_LOCALTIME`. -/
def timeLength : List Char → Option Nat
  | h :: h' :: ':' :: m :: m' :: ':' :: s :: s' :: rest =>
      if isHour h h' && isMinute m m' && isMinute s s' then some (8 + secondsFraction rest)
      else none
  | _ => none

/-- `(?:([Zz])|([+-])([01][0-9]|2[0-3]):([0-5][0-9]))?` at the front. -/
def offsetLength : List Char → Nat
  | 'Z' :: _ | 'z' :: _ => 1
  | s :: h :: h' :: ':' :: m :: m' :: _ =>
      if (s = '+' || s = '-') && isHour h h' && isMinute m m' then 6 else 0
  | _ => 0

/-- The year, month and day of a date at the front. -/
def date : List Char → Option (Nat × Nat × Nat)
  | y :: y' :: y'' :: y''' :: '-' :: m :: m' :: '-' :: d :: d' :: _ =>
      let number := fun cs : List Char => cs.foldl (fun n c => 10 * n + (c.toNat - 48)) 0
      let month := number [m, m']
      let day := number [d, d']
      if [y, y', y'', y''', m, m', d, d'].all Char.isDigit && 1 ≤ month && month ≤ 12 && 1 ≤ day &&
          day ≤ 31 then some (number [y, y', y'', y'''], month, day)
      else none
  | _ => none

/-- The arguments that `datetime.date` accepts. -/
def validDate (year month day : Nat) : Bool :=
  let leap := year % 4 = 0 && (year % 100 ≠ 0 || year % 400 = 0)
  let days := if month = 2 then (if leap then 29 else 28)
    else if month = 4 ∨ month = 6 ∨ month = 9 ∨ month = 11 then 30 else 31
  1 ≤ year && day ≤ days

/-- `RE_DATETIME`, from the end of the date on. -/
def afterDateLength : List Char → Nat
  | c :: rest =>
      if c = 'T' ∨ c = 't' ∨ c = ' ' then
        match timeLength rest with
        | some n => 1 + n + offsetLength (rest.drop n)
        | none => 0
      else 0
  | [] => 0

/-- How long the number, date or time is at the front of the line. -/
def scalarLength (line : List Char) : Option Nat :=
  match date line with
  | some (year, month, day) =>
      if validDate year month day then some (10 + afterDateLength (line.drop 10)) else none
  | none =>
      ((timeLength line).or (numberLength line)).or
        (if ["inf", "nan"].any (·.toList.isPrefixOf line) then some 3
        else if ["-inf", "+inf", "-nan", "+nan"].any (·.toList.isPrefixOf line) then some 4
        else none)

/-! ## strings -/

/-- The kinds of strings. -/
structure Quoting where
  quote : Char
  escapes : Bool
  multiline : Bool

def basic (multiline : Bool) : Quoting := ⟨'"', true, multiline⟩

def literal (multiline : Bool) : Quoting := ⟨'\'', false, multiline⟩

/-- What came before in an escape sequence. -/
inductive Escape
  | none
  | start
  | hex (left value : Nat)
  /-- After a backslash at the end of a line, or before it. -/
  | trim (newline : Bool)

/-- `BASIC_STR_ESCAPE_REPLACEMENTS`. -/
def replacement (c : Char) : Option Char :=
  if c = 'b' then some '\x08' else if c = 't' then some '\t' else if c = 'n' then some '\n'
  else if c = 'f' then some '\x0c' else if c = 'r' then some '\r'
  else if c = '"' then some '"' else if c = '\\' then some '\\' else none

def hexValue (c : Char) : Option Nat :=
  if c.isDigit then some (c.toNat - 48)
  else if 'a' ≤ c ∧ c ≤ 'f' then some (c.toNat - 87)
  else if 'A' ≤ c ∧ c ≤ 'F' then some (c.toNat - 55)
  else none

/-- `is_unicode_scalar_value`. -/
def isScalarValue (n : Nat) : Bool := n ≤ 55295 || 57344 ≤ n && n ≤ 1114111

/-- The step of a string: it ends, or goes on with a character or none. -/
inductive StringStep
  | done
  | next (read : Option Char) (e : Escape)
  | fail

/-- Outside of an escape sequence; two more quotes end a multi-line string. -/
def plainStep (q : Quoting) (c : Char) (rest : List Char) : StringStep :=
  if c = q.quote then
    if !q.multiline || [q.quote, q.quote].isPrefixOf (restOfLine rest) then .done
    else .next (some c) .none
  else if q.escapes && c = '\\' then .next none .start
  else if illegal c && !(q.multiline && c = '\n') then .fail
  else .next (some c) .none

/-- One character of a string. -/
def stringStep (q : Quoting) (c : Char) (rest : List Char) : Escape → StringStep
  | .none => plainStep q c rest
  | .start =>
      if q.multiline && isWs c then .next none (.trim false)
      else if q.multiline && c = '\n' then .next none (.trim true)
      else if c = 'u' then .next none (.hex 4 0)
      else if c = 'U' then .next none (.hex 8 0)
      else match replacement c with
        | some d => .next (some d) .none
        | none => .fail
  | .hex left value =>
      match hexValue c with
      | none => .fail
      | some d =>
          if 1 < left then .next none (.hex (left - 1) (16 * value + d))
          else if isScalarValue (16 * value + d) then
            .next (some (Char.ofNat (16 * value + d))) .none
          else .fail
  | .trim newline =>
      if isWs c then .next none (.trim newline)
      else if c = '\n' then .next none (.trim true)
      else if newline then plainStep q c rest
      else .fail

/-- What is left of the quotes at the end. -/
def closing (q : Quoting) (rest : List Char) : List Char :=
  if q.multiline then rest.drop 2 else rest

/-- A string from its opening quotes on. -/
def stringBody (q : Quoting) : Escape → Parser (List Char)
  | _, [] => none
  | e, c :: rest =>
      match stringStep q c rest e with
      | .done => some ([], closing q rest)
      | .next read e => (stringBody q e rest).map fun r => (read.toList ++ r.1, r.2)
      | .fail => none

/-- A character, if it is the next. -/
def optional (c : Char) : Parser (List Char) := do
  let next ← peek
  if next = some c then do
    let _ ← Parser.char c
    return [c]
  else return []

/-- `parse_one_line_basic_str` and `parse_literal_str`. -/
def oneLineString (q : Quoting) : Parser (List Char) := do
  let _ ← Parser.char q.quote
  stringBody q .none

/-- `parse_multiline_str`: up to two more quotes belong to the string. -/
def multilineString (q : Quoting) : Parser (List Char) := do
  let _ ← Parser.char q.quote
  let _ ← Parser.char q.quote
  let _ ← Parser.char q.quote
  let _ ← optional '\n'
  let body ← stringBody q .none
  let first ← optional q.quote
  if first = [] then return body
  else do
    let second ← optional q.quote
    return body ++ first ++ second

/-! ## comments and blanks -/

def check (b : Bool) : Parser Unit := if b then pure () else failure

/-- `skip_comment`. -/
def comment : Parser Unit := do
  let next ← peek
  if next = some '#' then do
    let body ← span (· ≠ '\n')
    check (body.all (!illegal ·))
  else return ()

/-- A character among the blanks of an array: it is not allowed, ends them, or is in a comment
or not. -/
inductive BlankStep
  | fail
  | stop
  | next (inComment : Bool)

def blankStep (c : Char) : Bool → BlankStep
  | true => if c = '\n' then .next false else if illegal c then .fail else .next true
  | false =>
      if isWs c || c = '\n' then .next false else if c = '#' then .next true else .stop

/-- `skip_comments_and_array_ws`. -/
def arrayBlanks : Bool → Parser Unit
  | _, [] => some ((), [])
  | inComment, c :: rest =>
      match blankStep c inComment with
      | .fail => none
      | .stop => some ((), c :: rest)
      | .next inComment => arrayBlanks inComment rest

/-! ## keys and values -/

/-- `parse_key_part`. -/
def keyPart : Parser Key := do
  let next ← peek
  if next = some '\'' then oneLineString (literal false)
  else if next = some '"' then oneLineString (basic false)
  else do
    let c ← satisfy isBareKey
    let cs ← span isBareKey
    return c :: cs

/-- `parse_key`. -/
def key : Nat → Parser (List Key)
  | 0 => failure
  | n + 1 => do
      let part ← keyPart
      let _ ← span isWs
      let next ← peek
      if next = some '.' then do
        let _ ← Parser.char '.'
        let _ ← span isWs
        let parts ← key n
        return part :: parts
      else return [part]

/-- A word that is ahead. -/
def word (w : List Char) : Parser (List Char) :=
  lexeme fun line => if w.isPrefixOf line then some w.length else none

/-- A number, a date or a time. -/
def scalar : Parser Value := do
  let text ← lexeme scalarLength
  return .scalar text

/-- The table of an inline table. -/
def tableOf (pairs : List (List Key × Value)) : Parser Value :=
  match inlineTable pairs with
  | some t => pure (.table t)
  | none => failure

mutual

/-- `parse_value`. -/
def value : Nat → Parser Value
  | 0 => failure
  | n + 1 => do
      if ← ahead ['"', '"', '"'] then Value.string <$> multilineString (basic true)
      else if ← ahead ['"'] then Value.string <$> oneLineString (basic false)
      else if ← ahead ['\'', '\'', '\''] then Value.string <$> multilineString (literal true)
      else if ← ahead ['\''] then Value.string <$> oneLineString (literal false)
      else if ← ahead "true".toList then (fun _ => Value.boolean true) <$> word "true".toList
      else if ← ahead "false".toList then (fun _ => Value.boolean false) <$> word "false".toList
      else if ← ahead ['['] then do
        let _ ← Parser.char '['
        let _ ← arrayBlanks false
        Value.array <$> arrayItems n
      else if ← ahead ['\x7b'] then do
        let _ ← Parser.char '\x7b'
        let _ ← span isWs
        if ← ahead ['\x7d'] then (fun _ => Value.table []) <$> Parser.char '\x7d'
        else inlinePairs n >>= tableOf
      else scalar

/-- `parse_array`, from an item on. -/
def arrayItems : Nat → Parser (List Value)
  | 0 => failure
  | n + 1 => do
      if ← ahead [']'] then (fun _ => []) <$> Parser.char ']'
      else do
        let v ← value n
        let _ ← arrayBlanks false
        if ← ahead [']'] then (fun _ => [v]) <$> Parser.char ']'
        else do
          let _ ← Parser.char ','
          let _ ← arrayBlanks false
          (v :: ·) <$> arrayItems n

/-- `parse_inline_table`, from a key on. -/
def inlinePairs : Nat → Parser (List (List Key × Value))
  | 0 => failure
  | n + 1 => do
      let k ← key n
      let _ ← Parser.char '='
      let _ ← span isWs
      let v ← value n
      let _ ← span isWs
      if ← ahead ['\x7d'] then (fun _ => [(k, v)]) <$> Parser.char '\x7d'
      else do
        let _ ← Parser.char ','
        let _ ← span isWs
        ((k, v) :: ·) <$> inlinePairs n

end

/-! ## lines -/

/-- The statement of a line, if there is one. -/
def statement (n : Nat) : Parser (Option Statement) := do
  let next ← peek
  if next = some '\n' ∨ next = some '#' then return none
  else if ← ahead ['[', '['] then do
    let _ ← Parser.char '['
    let _ ← Parser.char '['
    let _ ← span isWs
    let k ← key n
    let _ ← Parser.char ']'
    let _ ← Parser.char ']'
    return some (.arrayTable k)
  else if ← ahead ['['] then do
    let _ ← Parser.char '['
    let _ ← span isWs
    let k ← key n
    let _ ← Parser.char ']'
    return some (.table k)
  else do
    let k ← key n
    let _ ← Parser.char '='
    let _ ← span isWs
    let v ← value n
    return some (.keyValue k v)

/-- The body of the loop of `loads`, up to the line end. -/
def line (n : Nat) : Parser (Option Statement) := do
  let _ ← span isWs
  let st ← statement n
  let _ ← span isWs
  let _ ← comment
  return st

/-- A line with its statement. -/
abbrev Item := Option Statement × List Char

/-- The lines of a text; a statement may take several. -/
def items : Nat → List Char → Option (List Item)
  | _, [] => some []
  | 0, _ => none
  | n + 1, s =>
      match (line (n + 1)).run s with
      | some (st, '\n' :: rest) =>
          (items n rest).map fun l => (st, s.take (s.length - (rest.length + 1))) :: l
      | _ => none

/-- The statements of a text; its end is the end of a line. -/
def statements (text : List Char) : Option (List Statement) :=
  (items (text.length + 1) (text ++ ['\n'])).map (·.filterMap Prod.fst)

/-- `tomllib.loads`. -/
def loads (text : List Char) : Option Table :=
  (statements (crlf text)).bind fun sts => (run .empty sts).map Document.data

/-! ## what is read of a line -/

/-- A step of a string looks ahead within the line. -/
theorem stringStep_eq (q : Quoting) (c : Char) (e : Escape) {rest rest' : List Char}
    (h : restOfLine rest = restOfLine rest') : stringStep q c rest e = stringStep q c rest' e := by
  have hplain : plainStep q c rest = plainStep q c rest' := by rw [plainStep, h, plainStep]
  cases e <;> simp only [stringStep, hplain]

/-- A string ends outside of escape sequences. -/
theorem plainStep_of_done {q : Quoting} {c : Char} {rest : List Char} {e : Escape}
    (h : stringStep q c rest e = .done) : plainStep q c rest = .done := by
  cases e <;> simp only [stringStep] at h <;> grind

/-- A string that ends reads its quotes. -/
theorem closing_of_done {q : Quoting} {c : Char} {rest : List Char} {e : Escape}
    (h : stringStep q c rest e = .done) : ∃ quotes, rest = quotes ++ closing q rest ∧
      ∀ t', closing q (quotes ++ t') = t' := by
  cases hm : q.multiline with
  | false => exact ⟨[], by simp [closing, hm], fun t' => by simp [closing, hm]⟩
  | true =>
      have hplain := plainStep_of_done h
      have hquotes : [q.quote, q.quote].isPrefixOf (restOfLine rest) = true := by
        unfold plainStep at hplain
        rw [hm] at hplain
        grind
      obtain ⟨r, hr⟩ := (List.isPrefixOf_iff_prefix.mp hquotes).trans
        (List.takeWhile_prefix _ : restOfLine rest <+: rest)
      refine ⟨[q.quote, q.quote], ?_, fun t' => by simp [closing, hm]⟩
      rw [← hr]
      simp [closing, hm]

theorem run_stringBody_done {q : Quoting} {c : Char} {rest : List Char} {e : Escape}
    (h : stringStep q c rest e = .done) :
    (stringBody q e).run (c :: rest) = some ([], closing q rest) := by
  show stringBody q e (c :: rest) = _
  rw [stringBody, h]

theorem run_stringBody_next {q : Quoting} {c : Char} {rest : List Char} {e e' : Escape}
    {read : Option Char} (h : stringStep q c rest e = .next read e') :
    (stringBody q e).run (c :: rest) =
      ((stringBody q e').run rest).map fun r => (read.toList ++ r.1, r.2) := by
  show stringBody q e (c :: rest) = _
  rw [stringBody, h]
  rfl

theorem local_stringBody (q : Quoting) (e : Escape) : Local 1 (stringBody q e) := by
  intro s
  induction s generalizing e with
  | nil => intro a t h; cases h
  | cons c rest ih =>
      intro a t h
      cases hstep : stringStep q c rest e with
      | done =>
          rw [run_stringBody_done hstep] at h
          obtain ⟨rfl, rfl⟩ := Prod.mk.inj (Option.some.inj h)
          obtain ⟨quotes, hrest, hclosing⟩ := closing_of_done hstep
          refine ⟨c :: quotes, by rw [List.cons_append, ← hrest], by simp, fun t' ht => ?_⟩
          have hline := (ht.append quotes).restOfLine_eq
          rw [← hrest] at hline
          rw [List.cons_append, run_stringBody_done ((stringStep_eq q c e hline.symm).trans hstep),
            hclosing]
      | next read e' =>
          rw [run_stringBody_next hstep] at h
          obtain ⟨⟨b, u⟩, hb, hab⟩ := Option.map_eq_some_iff.mp h
          obtain ⟨rfl, rfl⟩ := Prod.mk.inj hab
          obtain ⟨c', rfl, -, hread⟩ := ih e' b u hb
          refine ⟨c :: c', rfl, by simp, fun t' ht => ?_⟩
          have hline := (ht.append c').restOfLine_eq
          rw [List.cons_append,
            run_stringBody_next ((stringStep_eq q c e hline.symm).trans hstep), hread t' ht]
          rfl
      | fail =>
          have hnone : (stringBody q e).run (c :: rest) = none := by
            show stringBody q e (c :: rest) = _
            rw [stringBody, hstep]
          rw [hnone] at h
          cases h

theorem local_optional (c : Char) : Local 0 (optional c) :=
  local_peek.skip fun _ => ((local_char c).mono (Nat.zero_le 1)).then (fun _ => Local.pure _) |>.ite
    (Local.pure _)

theorem local_oneLineString (q : Quoting) : Local 1 (oneLineString q) :=
  (local_char _).then fun _ => (local_stringBody q .none).mono (Nat.zero_le 1)

theorem local_multilineString (q : Quoting) : Local 1 (multilineString q) := by
  refine (local_char _).then fun _ => Local.mono ?_ (Nat.zero_le 1)
  refine (local_char _).then fun _ => Local.mono ?_ (Nat.zero_le 1)
  refine (local_char _).then fun _ => Local.mono ?_ (Nat.zero_le 1)
  refine (local_optional _).skip fun _ => (local_stringBody q .none).then fun _ => ?_
  refine (local_optional _).skip fun _ => (Local.pure _).ite ?_
  exact (local_optional _).skip fun _ => Local.pure _

theorem local_check (b : Bool) : Local 0 (check b) := (Local.pure ()).ite (Local.failure 0)

theorem local_comment : Local 0 comment :=
  local_peek.skip fun _ => ((local_span _).skip fun _ => local_check _).ite (Local.pure ())

theorem not_agree_nil (t : List Char) : ¬ Agree [] t := by
  rintro ⟨d, r, r', h, -⟩
  cases d <;> cases h

/-- Blanks end before a character that is none. -/
theorem local_arrayBlanks (inComment : Bool) : Local 0 (arrayBlanks inComment) := by
  intro s
  induction s generalizing inComment with
  | nil =>
      intro a t h
      obtain ⟨rfl, rfl⟩ : (() = a) ∧ [] = t := by
        cases inComment <;> exact Prod.mk.inj (Option.some.inj h)
      exact ⟨[], rfl, le_rfl, fun t' ht => absurd ht (not_agree_nil t')⟩
  | cons c rest ih =>
      intro a t h
      cases hstep : blankStep c inComment with
      | fail =>
          have hnone : (arrayBlanks inComment).run (c :: rest) = none := by
            show arrayBlanks inComment (c :: rest) = _
            rw [arrayBlanks, hstep]
          rw [hnone] at h
          cases h
      | stop =>
          have hstop : ∀ r, (arrayBlanks inComment).run (c :: r) = some ((), c :: r) := by
            intro r
            show arrayBlanks inComment (c :: r) = _
            rw [arrayBlanks, hstep]
          rw [hstop] at h
          obtain ⟨rfl, rfl⟩ := Prod.mk.inj (Option.some.inj h)
          refine ⟨[], rfl, le_rfl, fun t' ht => ?_⟩
          have hhead := ht.head?_eq
          cases t' with
          | nil => cases hhead
          | cons d r =>
              obtain rfl := Option.some.inj hhead
              exact hstop r
      | next inComment' =>
          have hnext : ∀ r, (arrayBlanks inComment).run (c :: r) =
              (arrayBlanks inComment').run r := by
            intro r
            show arrayBlanks inComment (c :: r) = _
            rw [arrayBlanks, hstep]
            rfl
          rw [hnext] at h
          obtain ⟨c', rfl, -, hread⟩ := ih inComment' a t h
          refine ⟨c :: c', rfl, Nat.zero_le _, fun t' ht => ?_⟩
          rw [List.cons_append, hnext]
          exact hread t' ht

theorem local_keyPart : Local 1 keyPart :=
  local_peek.skip fun _ => (local_oneLineString _).ite <| (local_oneLineString _).ite <|
    (local_satisfy _).then fun _ => (local_span _).skip fun _ => Local.pure _

theorem localAt_key (n : Nat) : LocalAt n 0 1 key := by
  induction n with
  | zero => exact LocalAt.zero rfl
  | succ n ih =>
      refine LocalAt.succ (fun _ => rfl) le_rfl ?_
      refine LocalAt.step local_keyPart fun _ => LocalAt.skip (local_span _) fun _ =>
        LocalAt.skip local_peek fun _ => LocalAt.ite ?_ (Local.pure _).localAt
      refine LocalAt.mono ?_ (Nat.zero_le 1) (Nat.zero_le 1)
      exact LocalAt.step (local_char _) fun _ => LocalAt.skip (local_span _) fun _ =>
        LocalAt.seq (ih.mono le_rfl (Nat.zero_le 1)) fun _ => (Local.pure _).localAt

theorem local_word (w : List Char) : Local 1 (word w) := local_lexeme _

theorem local_scalar : Local 1 scalar := (local_lexeme _).then fun _ => Local.pure _

theorem local_tableOf (pairs : List (List Key × Value)) : Local 0 (tableOf pairs) := by
  unfold tableOf
  split
  · exact Local.pure _
  · exact Local.failure 0

/-- **Values**: what is read of a value does not depend on what follows its line. -/
theorem localAt_value (n : Nat) :
    LocalAt n 0 1 value ∧ LocalAt n 0 1 arrayItems ∧ LocalAt n 0 1 inlinePairs := by
  induction n with
  | zero => exact ⟨LocalAt.zero rfl, LocalAt.zero rfl, LocalAt.zero rfl⟩
  | succ n ih =>
      obtain ⟨hvalue, hitems, hpairs⟩ := ih
      refine ⟨LocalAt.succ (fun _ => rfl) le_rfl ?_, LocalAt.succ (fun _ => rfl) le_rfl ?_,
        LocalAt.succ (fun _ => rfl) le_rfl ?_⟩
      · refine LocalAt.skip (local_ahead _) fun _ =>
          LocalAt.ite ((local_multilineString _).map _).localAt ?_
        refine LocalAt.skip (local_ahead _) fun _ =>
          LocalAt.ite ((local_oneLineString _).map _).localAt ?_
        refine LocalAt.skip (local_ahead _) fun _ =>
          LocalAt.ite ((local_multilineString _).map _).localAt ?_
        refine LocalAt.skip (local_ahead _) fun _ =>
          LocalAt.ite ((local_oneLineString _).map _).localAt ?_
        refine LocalAt.skip (local_ahead _) fun _ =>
          LocalAt.ite ((local_word _).map _).localAt ?_
        refine LocalAt.skip (local_ahead _) fun _ =>
          LocalAt.ite ((local_word _).map _).localAt ?_
        refine LocalAt.skip (local_ahead _) fun _ => LocalAt.ite ?_ ?_
        · exact LocalAt.step (local_char _) fun _ => LocalAt.skip (local_arrayBlanks _) fun _ =>
            (hitems.mono le_rfl (Nat.zero_le 1)).map _
        refine LocalAt.skip (local_ahead _) fun _ => LocalAt.ite ?_ local_scalar.localAt
        refine LocalAt.step (local_char _) fun _ => LocalAt.skip (local_span _) fun _ =>
          LocalAt.skip (local_ahead _) fun _ => LocalAt.ite ?_ ?_
        · exact (((local_char _).mono (Nat.zero_le 1)).map _).localAt
        · exact LocalAt.seq (hpairs.mono le_rfl (Nat.zero_le 1)) fun _ =>
            (local_tableOf _).localAt
      · refine LocalAt.skip (local_ahead _) fun _ => LocalAt.ite ((local_char _).map _).localAt ?_
        refine LocalAt.cover hvalue fun _ => LocalAt.skip (local_arrayBlanks _) fun _ =>
          LocalAt.skip (local_ahead _) fun _ => LocalAt.ite ((local_char _).map _).localAt ?_
        refine LocalAt.mono ?_ (Nat.zero_le 1) le_rfl
        exact LocalAt.step (local_char _) fun _ => LocalAt.skip (local_arrayBlanks _) fun _ =>
          (hitems.mono le_rfl (Nat.zero_le 1)).map _
      · refine LocalAt.cover (localAt_key n) fun _ => LocalAt.mono ?_ (Nat.zero_le 1) le_rfl
        refine LocalAt.step (local_char _) fun _ => LocalAt.skip (local_span _) fun _ =>
          LocalAt.seq (hvalue.mono le_rfl (Nat.zero_le 1)) fun _ =>
            LocalAt.skip (local_span _) fun _ => LocalAt.skip (local_ahead _) fun _ =>
              LocalAt.ite ?_ ?_
        · exact (((local_char _).mono (Nat.zero_le 1)).map _).localAt
        · refine LocalAt.mono ?_ (Nat.zero_le 1) (Nat.zero_le 1)
          exact LocalAt.step (local_char _) fun _ => LocalAt.skip (local_span _) fun _ =>
            (hpairs.mono le_rfl (Nat.zero_le 1)).map _

theorem localAt_statement (n : Nat) : LocalAt n 0 0 statement := by
  have hkey : LocalAt n 0 0 key := (localAt_key n).mono le_rfl (Nat.zero_le 1)
  have hchar : ∀ c, Local 0 (Parser.char c) := fun c => (local_char c).mono (Nat.zero_le 1)
  refine LocalAt.skip local_peek fun _ => LocalAt.ite (Local.pure _).localAt ?_
  refine LocalAt.skip (local_ahead _) fun _ => LocalAt.ite ?_ ?_
  · exact LocalAt.skip (hchar _) fun _ => LocalAt.skip (hchar _) fun _ =>
      LocalAt.skip (local_span _) fun _ => LocalAt.seq hkey fun _ => LocalAt.skip (hchar _) fun _ =>
        LocalAt.skip (hchar _) fun _ => (Local.pure _).localAt
  refine LocalAt.skip (local_ahead _) fun _ => LocalAt.ite ?_ ?_
  · exact LocalAt.skip (hchar _) fun _ => LocalAt.skip (local_span _) fun _ =>
      LocalAt.seq hkey fun _ => LocalAt.skip (hchar _) fun _ => (Local.pure _).localAt
  · exact LocalAt.seq hkey fun _ => LocalAt.skip (hchar _) fun _ =>
      LocalAt.skip (local_span _) fun _ =>
        LocalAt.seq ((localAt_value n).1.mono le_rfl (Nat.zero_le 1)) fun _ =>
          (Local.pure _).localAt

theorem localAt_line (n : Nat) : LocalAt n 0 0 line :=
  LocalAt.skip (local_span _) fun _ => LocalAt.seq (localAt_statement n) fun _ =>
    LocalAt.skip (local_span _) fun _ => LocalAt.skip local_comment fun _ =>
      (Local.pure _).localAt

/-! ## the lines of a text -/

/-- The text is that of the item, whatever follows. -/
def Reads (x : Item) : Prop :=
  ∀ m rest, x.2.length ≤ m → (line m).run (x.2 ++ '\n' :: rest) = some (x.1, '\n' :: rest)

theorem joinLines_cons (l : Line) (ls : List Line) :
    joinLines (l :: ls) = l ++ '\n' :: joinLines ls := by
  simp [joinLines]

theorem items_succ {n : Nat} {s : List Char} (hs : s ≠ []) {st : Option Statement}
    {rest : List Char} (h : (line (n + 1)).run s = some (st, '\n' :: rest)) :
    items (n + 1) s =
      (items n rest).map fun l => (st, s.take (s.length - (rest.length + 1))) :: l := by
  rw [items]
  · rw [h]
    rfl
  · exact hs

/-- The items of a text make it up, and each is read by itself. -/
theorem reads_of_items {n : Nat} {s : List Char} {l : List Item} (h : items n s = some l) :
    s = joinLines (l.map Prod.snd) ∧ ∀ x ∈ l, Reads x := by
  induction n generalizing s l with
  | zero =>
      cases s with
      | nil =>
          obtain rfl := Option.some.inj h
          exact ⟨rfl, fun x hx => (nomatch hx)⟩
      | cons c s => cases h
  | succ n ih =>
      cases s with
      | nil =>
          obtain rfl := Option.some.inj h
          exact ⟨rfl, fun x hx => (nomatch hx)⟩
      | cons c s =>
          rw [items] at h
          · split at h
            · next st rest hline =>
                obtain ⟨l', hl', rfl⟩ := Option.map_eq_some_iff.mp h
                obtain ⟨hrest, hreads⟩ := ih hl'
                obtain ⟨src, hsrc, -, hread⟩ := localAt_line (n + 1) _ _ _ hline
                have htake : (c :: s).take ((c :: s).length - (rest.length + 1)) = src := by
                  rw [hsrc]
                  simp
                rw [htake]
                refine ⟨?_, List.forall_mem_cons.mpr ⟨fun m rest' hm => ?_, hreads⟩⟩
                · rw [List.map_cons, joinLines_cons, ← hrest, hsrc]
                · exact hread m _ hm (agree_newline rest rest')
            · cases h
          · exact List.cons_ne_nil _ _

/-- Items that are read by themselves are those of the text they make up, whatever follows. -/
theorem items_append {n : Nat} {l : List Item} {s : List Char} (h : ∀ x ∈ l, Reads x)
    (hn : (joinLines (l.map Prod.snd) ++ s).length ≤ n) : ∃ m, s.length ≤ m ∧
      items n (joinLines (l.map Prod.snd) ++ s) = (items m s).map (l ++ ·) := by
  induction l generalizing n with
  | nil => exact ⟨n, hn, by simp [joinLines]⟩
  | cons x l ih =>
      rw [List.map_cons, joinLines_cons, List.append_assoc, List.cons_append] at hn ⊢
      rw [List.length_append, List.length_cons] at hn
      cases n with
      | zero => omega
      | succ n =>
          obtain ⟨m, hm, hrest⟩ := ih (n := n) (fun y hy => h y (List.mem_cons_of_mem x hy))
            (by omega)
          refine ⟨m, hm, ?_⟩
          rw [items_succ (by simp) (h x List.mem_cons_self (n + 1) _ (by omega)), hrest]
          simp [Option.map_map, Function.comp_def]

theorem items_of_reads {n : Nat} {l : List Item} (h : ∀ x ∈ l, Reads x)
    (hn : (joinLines (l.map Prod.snd)).length ≤ n) :
    items n (joinLines (l.map Prod.snd)) = some l := by
  obtain ⟨m, -, hitems⟩ := items_append (n := n) (s := []) h (by simpa using hn)
  have hnil : items m [] = some [] := by cases m <;> rfl
  rwa [List.append_nil, hnil, Option.map_some, List.append_nil] at hitems

/-- The first item of a text. -/
theorem exists_of_items {n : Nat} {s : List Char} {l : List Item} (hs : s ≠ [])
    (h : items n s = some l) : ∃ m st rest src l', n = m + 1 ∧
      (line (m + 1)).run s = some (st, '\n' :: rest) ∧ items m rest = some l' ∧
        l = (st, src) :: l' := by
  cases n with
  | zero =>
      cases s with
      | nil => exact absurd rfl hs
      | cons c s => cases h
  | succ m =>
      rw [items] at h
      · split at h
        · next st rest hline =>
            obtain ⟨l', hl', rfl⟩ := Option.map_eq_some_iff.mp h
            exact ⟨m, st, rest, _, l', rfl, hline, hl', rfl⟩
        · cases h
      · exact hs

/-- The statements of a text that ends with a line end. -/
theorem statements_of_items {text : List Char} {l : List Item}
    (h : items text.length text = some l) : statements text = some (l.filterMap Prod.fst) := by
  obtain ⟨hjoin, hreads⟩ := reads_of_items h
  have hblank : Reads (none, []) := fun m rest _ => rfl
  have hall : ∀ x ∈ l ++ [(none, [])], Reads x := by
    intro x hx
    rcases List.mem_append.mp hx with hx | hx
    · exact hreads x hx
    · exact List.mem_singleton.mp hx ▸ hblank
  have htext : text ++ ['\n'] = joinLines ((l ++ [((none, []) : Item)]).map Prod.snd) := by
    rw [List.map_append, joinLines, List.flatMap_append, ← joinLines, ← hjoin]
    rfl
  have hlength := congrArg List.length htext
  rw [List.length_append, List.length_singleton] at hlength
  rw [statements, htext, items_of_reads hall hlength.symm.le, Option.map_some,
    List.filterMap_append]
  simp

end Toml
