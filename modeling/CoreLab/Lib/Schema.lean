import CoreLab.Lib.Loops
import Mathlib.Data.List.Basic

/-!
# Lib.Schema

Message models: a schema says which JSON values a message may be, and
validation returns the value that the model dumps again.

* `validate` — defaults are filled in, the fields come out in the model's order,
  and an object with a field the model does not have is refused;
* `validate_list_map`, `validate_dict_map` — a list or a dictionary whose values
  are validated as a typed conversion says is validated as that conversion is
  on the whole.

How a scalar is read is a parameter; `Scalars.Lawful` is what every reader of
JSON agrees on.
-/

namespace Schema

open Loops

/-- A JSON value; the numbers of a message are integers. -/
inductive Json where
  | null
  | bool (b : Bool)
  | num (n : Int)
  | str (s : String)
  | arr (items : List Json)
  | obj (fields : List (String × Json))

/-- The type of a field.  A model lists its fields with their defaults (`none`: required). -/
inductive FieldType where
  | any | bool | int | str | datetime
  | intGe (bound : Int)
  | strMax (bound : Nat)
  | literal (texts : List String)
  | optional (t : FieldType)
  | list (t : FieldType)
  | dict (t : FieldType)
  | model (fields : List (String × FieldType × Option Json))

/-- How the scalars are read; a datetime is returned as the text it is dumped as. -/
structure Scalars where
  bool : Json → Option Bool
  int : Json → Option Int
  str : Json → Option String
  datetime : Json → Option String

/-- Values of the type itself are taken as they are, and a number is never read from `null`. -/
structure Scalars.Lawful (sc : Scalars) : Prop where
  bool_bool : ∀ b, sc.bool (.bool b) = some b
  int_num : ∀ n, sc.int (.num n) = some n
  int_null : sc.int .null = none
  str_str : ∀ s, sc.str (.str s) = some s

mutual

/-- Validate a value and dump the result; `none` is a validation error. -/
def validate (sc : Scalars) : FieldType → Json → Option Json
  | .any, v => some v
  | .bool, v => (sc.bool v).map .bool
  | .int, v => (sc.int v).map .num
  | .str, v => (sc.str v).map .str
  | .datetime, v => (sc.datetime v).map .str
  | .intGe bound, v => (sc.int v).bind fun n => if bound ≤ n then some (.num n) else none
  | .strMax bound, v =>
    (sc.str v).bind fun s => if s.length ≤ bound then some (.str s) else none
  | .literal texts, v => match v with
    | .str s => if s ∈ texts then some (.str s) else none
    | _ => none
  | .optional t, v => match v with
    | .null => some .null
    | v => validate sc t v
  | .list t, v => match v with
    | .arr items => (items.mapM (validate sc t)).map .arr
    | _ => none
  | .dict t, v => match v with
    | .obj es => (es.mapM fun e => (validate sc t e.2).map fun v => (e.1, v)).map .obj
    | _ => none
  | .model fields, v => match v with
    | .obj es =>
      if es.all fun e => fields.any fun f => f.1 = e.1 then (validateFields sc fields es).map .obj
      else none
    | _ => none

/-- The fields of a model, in its order; a missing one takes its default. -/
def validateFields (sc : Scalars) :
    List (String × FieldType × Option Json) → List (String × Json) → Option (List (String × Json))
  | [], _ => some []
  | (name, t, default) :: fields, es =>
    ((es.lookup name).elim default (validate sc t)).bind fun v =>
      (validateFields sc fields es).map fun vs => (name, v) :: vs

end

/-- A required field. -/
def required (name : String) (t : FieldType) : String × FieldType × Option Json := (name, t, none)

/-- A field with a default. -/
def withDefault (name : String) (t : FieldType) (default : Json) :
    String × FieldType × Option Json := (name, t, some default)

/-- A field that may be missing or `null`. -/
def nullable (name : String) (t : FieldType) : String × FieldType × Option Json :=
  (name, .optional t, some .null)

/-- `v.get(key)` of an object. -/
def Json.get? (key : String) : Json → Option Json
  | .obj es => es.lookup key
  | _ => none

/-- The text of a string. -/
def Json.text? : Json → Option String
  | .str s => some s
  | _ => none

/-- The elements of an array. -/
def Json.items? : Json → Option (List Json)
  | .arr items => some items
  | _ => none

/-- The fields of an object. -/
def Json.fields? : Json → Option (List (String × Json))
  | .obj es => some es
  | _ => none

/-- The JSON of an optional value. -/
def Json.ofOption {α : Type} (f : α → Json) : Option α → Json
  | none => .null
  | some a => f a

/-! ## what a type makes of a value -/

section Equations

variable (sc : Scalars)

theorem validate_any_eq (v : Json) : validate sc .any v = some v := rfl

theorem validate_bool_eq (v : Json) : validate sc .bool v = (sc.bool v).map .bool := rfl

theorem validate_int_eq (v : Json) : validate sc .int v = (sc.int v).map .num := rfl

theorem validate_str_eq (v : Json) : validate sc .str v = (sc.str v).map .str := rfl

theorem validate_datetime_eq (v : Json) : validate sc .datetime v = (sc.datetime v).map .str := rfl

theorem validate_intGe_eq (bound : Int) (v : Json) : validate sc (.intGe bound) v =
    (sc.int v).bind fun n => if bound ≤ n then some (.num n) else none :=
  rfl

theorem validate_literal_str (texts : List String) (s : String) :
    validate sc (.literal texts) (.str s) = if s ∈ texts then some (.str s) else none :=
  rfl

@[simp] theorem validate_optional_null (t : FieldType) :
    validate sc (.optional t) .null = some .null :=
  rfl

theorem validate_list_arr (t : FieldType) (items : List Json) :
    validate sc (.list t) (.arr items) = (items.mapM (validate sc t)).map .arr :=
  rfl

theorem validate_dict_obj (t : FieldType) (es : List (String × Json)) :
    validate sc (.dict t) (.obj es) =
      (es.mapM fun e => (validate sc t e.2).map fun v => (e.1, v)).map .obj :=
  rfl

theorem validate_model_obj (fields : List (String × FieldType × Option Json))
    (es : List (String × Json)) :
    validate sc (.model fields) (.obj es) =
      if es.all fun e => fields.any fun f => f.1 = e.1 then (validateFields sc fields es).map .obj
      else none :=
  rfl

theorem validateFields_cons (name : String) (t : FieldType) (default : Option Json)
    (fields : List (String × FieldType × Option Json)) (es : List (String × Json)) :
    validateFields sc ((name, t, default) :: fields) es =
      ((es.lookup name).elim default (validate sc t)).bind fun v =>
        (validateFields sc fields es).map fun vs => (name, v) :: vs :=
  rfl

end Equations

theorem validate_literal {sc : Scalars} {texts : List String} {s : String} (h : s ∈ texts) :
    validate sc (.literal texts) (.str s) = some (.str s) := by
  rw [validate_literal_str]
  exact if_pos h

/-- Validate the fields of an object that has the model's fields in the model's order. -/
def validateInOrder (sc : Scalars) :
    List (String × FieldType × Option Json) → List (String × Json) → Option (List (String × Json))
  | (name, t, _) :: fields, (_, v) :: es =>
    (validate sc t v).bind fun w => (validateInOrder sc fields es).map fun ws => (name, w) :: ws
  | _, _ => some []

theorem lookup_of_mem {es : List (String × Json)} (h : (es.map Prod.fst).Nodup)
    {e : String × Json} (he : e ∈ es) : es.lookup e.1 = some e.2 := by
  induction es with
  | nil => cases he
  | cons f es ih =>
      rw [List.map_cons, List.nodup_cons] at h
      rw [List.lookup_cons]
      by_cases hkey : e.1 = f.1
      · have heq : e = f := (List.mem_cons.mp he).resolve_right fun hmem =>
          h.1 (hkey ▸ List.mem_map_of_mem hmem)
        rw [heq, beq_self_eq_true]
      · have hmem : e ∈ es := (List.mem_cons.mp he).resolve_left fun heq => hkey (heq ▸ rfl)
        rw [beq_false_of_ne hkey]
        exact ih h.2 hmem

/-- **An object with the model's fields in order** is validated field by field. -/
theorem validate_model {sc : Scalars} {fields : List (String × FieldType × Option Json)}
    {es : List (String × Json)} (hnames : es.map Prod.fst = fields.map Prod.fst)
    (hnodup : (fields.map Prod.fst).Nodup) :
    validate sc (.model fields) (.obj es) = (validateInOrder sc fields es).map .obj := by
  have hfields : ∀ (fields : List (String × FieldType × Option Json)) (tail : List (String × Json)),
      tail.map Prod.fst = fields.map Prod.fst → (∀ e ∈ tail, es.lookup e.1 = some e.2) →
      validateFields sc fields es = validateInOrder sc fields tail := by
    intro fields
    induction fields with
    | nil =>
        intro tail hnames _
        rw [List.map_eq_nil_iff.mp hnames]
        rfl
    | cons f fields ih =>
        intro tail hnames hlookup
        cases tail with
        | nil => cases hnames
        | cons e tail =>
            obtain ⟨name, t, default⟩ := f
            obtain ⟨key, v⟩ := e
            obtain ⟨hkey, htail⟩ := List.cons_eq_cons.mp hnames
            obtain rfl : key = name := hkey
            have hv : es.lookup key = some v := hlookup (key, v) List.mem_cons_self
            rw [validateFields_cons, hv, Option.elim_some, validateInOrder,
              ih tail htail fun e he => hlookup e (List.mem_cons_of_mem _ he)]
  have hknown : es.all (fun e => fields.any fun f => f.1 = e.1) = true := by
    rw [List.all_eq_true]
    intro e he
    have hmem : e.1 ∈ fields.map Prod.fst := hnames ▸ List.mem_map_of_mem he
    obtain ⟨f, hf, hname⟩ := List.mem_map.mp hmem
    exact List.any_eq_true.mpr ⟨f, hf, decide_eq_true hname⟩
  have hnodup' : (es.map Prod.fst).Nodup := hnames ▸ hnodup
  rw [validate_model_obj, ← hfields fields es hnames fun e he => lookup_of_mem hnodup' he]
  exact if_pos hknown

/-! ## scalars -/

section Scalars

variable {sc : Scalars} (h : sc.Lawful)
include h

theorem validate_bool (b : Bool) : validate sc .bool (.bool b) = some (.bool b) := by
  rw [validate_bool_eq, h.bool_bool, Option.map_some]

theorem validate_int (n : Int) : validate sc .int (.num n) = some (.num n) := by
  rw [validate_int_eq, h.int_num, Option.map_some]

theorem validate_int_null : validate sc .int .null = none := by
  rw [validate_int_eq, h.int_null, Option.map_none]

theorem validate_str (s : String) : validate sc .str (.str s) = some (.str s) := by
  rw [validate_str_eq, h.str_str, Option.map_some]

theorem validate_intGe {bound n : Int} (hn : bound ≤ n) :
    validate sc (.intGe bound) (.num n) = some (.num n) := by
  rw [validate_intGe_eq, h.int_num, Option.bind_some, if_pos hn]

theorem validate_optional_int (n : Option Int) :
    validate sc (.optional .int) (.ofOption .num n) = some (.ofOption .num n) := by
  cases n with
  | none => rfl
  | some n => exact validate_int h n

theorem validate_optional_str (s : Option String) :
    validate sc (.optional .str) (.ofOption .str s) = some (.ofOption .str s) := by
  cases s with
  | none => rfl
  | some s => exact validate_str h s

end Scalars

/-! ## lists and dictionaries -/

variable {α β : Type}

theorem validate_list_map {sc : Scalars} {t : FieldType} {enc : α → Json} {g : α → Option β}
    {dec : β → Json} {l : List α} (h : ∀ a ∈ l, validate sc t (enc a) = (g a).map dec) :
    validate sc (.list t) (.arr (l.map enc)) =
      (l.mapM g).map fun l' => .arr (l'.map dec) := by
  rw [validate_list_arr, mapM_map_of_comm h, Option.map_map]
  rfl

theorem validate_dict_map {sc : Scalars} {t : FieldType} {enc : α → Json} {g : α → Option β}
    {dec : β → Json} {l : List (String × α)}
    (h : ∀ e ∈ l, validate sc t (enc e.2) = (g e.2).map dec) :
    validate sc (.dict t) (.obj (l.map fun e => (e.1, enc e.2))) =
      (l.mapM fun e => (g e.2).map fun b => (e.1, b)).map fun l' =>
        .obj (l'.map fun e => (e.1, dec e.2)) := by
  have hcomm : ∀ e ∈ l, ((validate sc t (enc e.2)).map fun v => (e.1, v)) =
      ((g e.2).map fun b => (e.1, b)).map fun e : String × β => (e.1, dec e.2) := by
    intro e he
    rw [h e he, Option.map_map, Option.map_map]
    rfl
  rw [validate_dict_obj, mapM_map_of_comm hcomm, Option.map_map]
  rfl

end Schema
