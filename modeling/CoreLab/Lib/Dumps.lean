import CoreLab.Lib.Schema

/-!
# Lib.Dumps

What a message model dumps is read by the same model again.

* `Stable` — a datetime is dumped as a text that is read as that datetime;
* `Settled` — a type whose models name each field once and whose defaults are
  read as they are;
* `settled_of_plain` — the check that finds a type settled for every reader of
  JSON, for the types whose defaults hold no datetime;
* `validate_dump` — a dump is read as it is, so that validating once more
  changes nothing;
* `validate_dump_model` — nor does it with other defaults, since a dump leaves
  no field of its model out.
-/

namespace Schema

/-- A datetime is dumped as a text that is read, and dumped, as the same text. -/
def Scalars.Stable (sc : Scalars) : Prop :=
  ∀ v s, sc.datetime v = some s → sc.datetime (.str s) = some s

mutual

/-- Each model of the type names a field once, and reads its defaults as they are. -/
def Settled (sc : Scalars) : FieldType → Prop
  | .any | .bool | .int | .str | .datetime | .intGe _ | .strMax _ | .literal _ => True
  | .optional t => Settled sc t
  | .list t => Settled sc t
  | .dict t => Settled sc t
  | .model fields => (fields.map Prod.fst).Nodup ∧ SettledFields sc fields

/-- `Settled` of the fields of a model. -/
def SettledFields (sc : Scalars) : List (String × FieldType × Option Json) → Prop
  | [] => True
  | (_, t, default) :: fields =>
    Settled sc t ∧ (∀ d, default = some d → validate sc t d = some d) ∧ SettledFields sc fields

end

/-- A default that every reader of JSON takes as it is. -/
def plainDefault : FieldType → Json → Bool
  | .any, _ => true
  | .bool, .bool _ => true
  | .int, .num _ => true
  | .str, .str _ => true
  | .intGe bound, .num n => decide (bound ≤ n)
  | .strMax bound, .str s => decide (s.length ≤ bound)
  | .literal texts, .str s => texts.contains s
  | .optional _, .null => true
  | .list _, .arr [] => true
  | .dict _, .obj [] => true
  | _, _ => false

mutual

/-- Each model of the type names a field once, and its defaults are plain. -/
def plain : FieldType → Bool
  | .any | .bool | .int | .str | .datetime | .intGe _ | .strMax _ | .literal _ => true
  | .optional t => plain t
  | .list t => plain t
  | .dict t => plain t
  | .model fields => decide (fields.map Prod.fst).Nodup && plainFields fields

/-- `plain` of the fields of a model. -/
def plainFields : List (String × FieldType × Option Json) → Bool
  | [] => true
  | (_, t, default) :: fields =>
    plain t && default.all (plainDefault t) && plainFields fields

end

variable {sc : Scalars}

theorem validate_plainDefault (h : sc.Lawful) {t : FieldType} {d : Json}
    (hd : plainDefault t d = true) : validate sc t d = some d := by
  unfold plainDefault at hd
  split at hd
  · rfl
  · exact validate_bool h _
  · exact validate_int h _
  · exact validate_str h _
  · exact validate_intGe h (of_decide_eq_true hd)
  next bound s =>
    rw [validate, h.str_str, Option.bind_some]
    exact if_pos (of_decide_eq_true hd)
  next texts s => exact validate_literal (List.contains_iff_mem.mp hd)
  · exact validate_optional_null sc _
  · rfl
  · rfl
  · cases hd

mutual

/-- A plain type is settled, however the scalars are read. -/
theorem settled_of_plain (h : sc.Lawful) : ∀ t : FieldType, plain t = true → Settled sc t
  | .any, _ | .bool, _ | .int, _ | .str, _ | .datetime, _ | .intGe _, _ | .strMax _, _
  | .literal _, _ => trivial
  | .optional t, ht => settled_of_plain h t ht
  | .list t, ht => settled_of_plain h t ht
  | .dict t, ht => settled_of_plain h t ht
  | .model fields, ht =>
    have hparts := Bool.and_eq_true_iff.mp ht
    ⟨of_decide_eq_true hparts.1, settledFields_of_plain h fields hparts.2⟩

theorem settledFields_of_plain (h : sc.Lawful) :
    ∀ fields : List (String × FieldType × Option Json), plainFields fields = true →
      SettledFields sc fields
  | [], _ => trivial
  | (_, t, default) :: fields, hfields => by
      obtain ⟨hhead, htail⟩ := Bool.and_eq_true_iff.mp hfields
      obtain ⟨ht, hdefault⟩ := Bool.and_eq_true_iff.mp hhead
      refine ⟨settled_of_plain h t ht, fun d hd => ?_, settledFields_of_plain h fields htail⟩
      subst hd
      exact validate_plainDefault h hdefault

end

/-! ## reading a dump -/

/-- A conversion that keeps what it gives keeps a list of what it gives. -/
theorem mapM_dump {α : Type} {f : α → Option α} (hf : ∀ a b, f a = some b → f b = some b)
    {l l' : List α} (h : l.mapM f = some l') : l'.mapM f = some l' := by
  induction l generalizing l' with
  | nil =>
      obtain rfl : [] = l' := Option.some.inj h
      rfl
  | cons a l ih =>
      rw [List.mapM_cons] at h
      obtain ⟨b, hb, h⟩ := Option.bind_eq_some_iff.mp h
      obtain ⟨bs, hbs, h⟩ := Option.bind_eq_some_iff.mp h
      obtain rfl : b :: bs = l' := Option.some.inj h
      rw [List.mapM_cons, hf a b hb, ih hbs]
      rfl

/-- A model reads the fields of an object, and dumps an object. -/
theorem exists_fields_of_validate {fields : List (String × FieldType × Option Json)} {v w : Json}
    (hw : validate sc (.model fields) v = some w) :
    ∃ es ws, validateFields sc fields es = some ws ∧ w = .obj ws := by
  cases v with
  | obj es =>
      obtain ⟨-, hw⟩ := Option.ite_none_right_eq_some.mp hw
      obtain ⟨ws, hws, rfl⟩ := Option.map_eq_some_iff.mp hw
      exact ⟨es, ws, hws, rfl⟩
  | _ => cases hw

theorem exists_text_of_literal {texts : List String} {v w : Json}
    (h : validate sc (.literal texts) v = some w) : ∃ s, s ∈ texts ∧ w = .str s := by
  cases v with
  | str s =>
      obtain ⟨hmem, hs⟩ := Option.ite_none_right_eq_some.mp h
      exact ⟨s, hmem, (Option.some.inj hs).symm⟩
  | _ => cases h

theorem exists_fields_of_dict {t : FieldType} {v w : Json}
    (h : validate sc (.dict t) v = some w) : ∃ fields, w = .obj fields := by
  cases v with
  | obj es =>
      obtain ⟨fields, -, rfl⟩ := Option.map_eq_some_iff.mp h
      exact ⟨fields, rfl⟩
  | _ => cases h

theorem exists_ofOption_of_optional {v w : Json} (h : validate sc (.optional .str) v = some w) :
    ∃ s : Option String, w = .ofOption .str s := by
  cases v with
  | null => exact ⟨none, (Option.some.inj h).symm⟩
  | _ =>
      obtain ⟨s, -, rfl⟩ := Option.map_eq_some_iff.mp h
      exact ⟨some s, rfl⟩

/-- A datetime that is dumped as a text is read of it. -/
theorem validate_stamp {stamp : String} (h : sc.datetime (.str stamp) = some stamp) :
    validate sc .datetime (.str stamp) = some (.str stamp) := by
  rw [validate_datetime_eq, h, Option.map_some]

mutual

/-- **A dump is read as it is.** -/
theorem validate_dump (h : sc.Lawful) (hstable : sc.Stable) :
    ∀ (t : FieldType), Settled sc t → ∀ (v w : Json), validate sc t v = some w →
      validate sc t w = some w
  | .any, _, _, _, _ => rfl
  | .bool, _, v, w, hw => by
      obtain ⟨b, -, rfl⟩ := Option.map_eq_some_iff.mp hw
      exact validate_bool h b
  | .int, _, v, w, hw => by
      obtain ⟨n, -, rfl⟩ := Option.map_eq_some_iff.mp hw
      exact validate_int h n
  | .str, _, v, w, hw => by
      obtain ⟨s, -, rfl⟩ := Option.map_eq_some_iff.mp hw
      exact validate_str h s
  | .datetime, _, v, w, hw => by
      obtain ⟨s, hs, rfl⟩ := Option.map_eq_some_iff.mp hw
      exact validate_stamp (hstable v s hs)
  | .intGe bound, _, v, w, hw => by
      obtain ⟨n, -, hn⟩ := Option.bind_eq_some_iff.mp hw
      obtain ⟨hbound, hn⟩ := Option.ite_none_right_eq_some.mp hn
      obtain rfl : .num n = w := Option.some.inj hn
      exact validate_intGe h hbound
  | .strMax bound, _, v, w, hw => by
      obtain ⟨s, -, hs⟩ := Option.bind_eq_some_iff.mp hw
      obtain ⟨hbound, hs⟩ := Option.ite_none_right_eq_some.mp hs
      obtain rfl : .str s = w := Option.some.inj hs
      exact validate_plainDefault h (decide_eq_true hbound)
  | .literal texts, _, v, w, hw => by
      obtain ⟨s, hmem, rfl⟩ := exists_text_of_literal hw
      exact validate_literal hmem
  | .optional t, ht, v, w, hw => by
      have hinner : v = .null ∨ validate sc t v = some w := by
        cases v with
        | null => exact Or.inl rfl
        | _ => exact Or.inr hw
      rcases hinner with rfl | hinner
      · obtain rfl : .null = w := Option.some.inj hw
        rfl
      · have hkept := validate_dump h hstable t ht v w hinner
        cases w with
        | null => rfl
        | _ => exact hkept
  | .list t, ht, v, w, hw => by
      cases v with
      | arr items =>
          obtain ⟨ws, hws, rfl⟩ := Option.map_eq_some_iff.mp hw
          rw [validate_list_arr, mapM_dump (validate_dump h hstable t ht) hws, Option.map_some]
      | _ => cases hw
  | .dict t, ht, v, w, hw => by
      cases v with
      | obj es =>
          obtain ⟨ws, hws, rfl⟩ := Option.map_eq_some_iff.mp hw
          have hentry : ∀ a b : String × Json,
              ((validate sc t a.2).map fun v => (a.1, v)) = some b →
              ((validate sc t b.2).map fun v => (b.1, v)) = some b := by
            intro a b hb
            obtain ⟨w, hw, rfl⟩ := Option.map_eq_some_iff.mp hb
            show (validate sc t w).map _ = _
            rw [validate_dump h hstable t ht a.2 w hw, Option.map_some]
          rw [validate_dict_obj, mapM_dump hentry hws, Option.map_some]
      | _ => cases hw
  | .model fields, ⟨hnodup, hfields⟩, v, w, hw => by
      obtain ⟨es, ws, hws, rfl⟩ := exists_fields_of_validate hw
      obtain ⟨hnames, hkept⟩ := validateFields_dump h hstable fields hfields es ws hws
      rw [validate_model hnames hnodup, hkept, Option.map_some]

/-- The fields of a dump are the model's, in its order, and are read as they are. -/
theorem validateFields_dump (h : sc.Lawful) (hstable : sc.Stable) :
    ∀ (fields : List (String × FieldType × Option Json)), SettledFields sc fields →
      ∀ (es ws : List (String × Json)), validateFields sc fields es = some ws →
        ws.map Prod.fst = fields.map Prod.fst ∧ validateInOrder sc fields ws = some ws
  | [], _, es, ws, hws => by
      obtain rfl : [] = ws := Option.some.inj hws
      exact ⟨rfl, rfl⟩
  | (name, t, default) :: fields, ⟨ht, hdefault, hfields⟩, es, ws, hws => by
      rw [validateFields_cons] at hws
      obtain ⟨v, hv, hws⟩ := Option.bind_eq_some_iff.mp hws
      obtain ⟨vs, hvs, rfl⟩ := Option.map_eq_some_iff.mp hws
      obtain ⟨hnames, hkept⟩ := validateFields_dump h hstable fields hfields es vs hvs
      -- the value was read from the object, or is the default of the field
      have hvalue : validate sc t v = some v := by
        cases hes : es.lookup name with
        | none =>
            rw [hes] at hv
            exact hdefault v hv
        | some v₀ =>
            rw [hes] at hv
            exact validate_dump h hstable t ht v₀ v hv
      refine ⟨by rw [List.map_cons, List.map_cons, hnames], ?_⟩
      rw [validateInOrder, hvalue, Option.bind_some, hkept, Option.map_some]

end

/-- The first field of a dump, and the rest of it. -/
theorem exists_cons_of_validateInOrder {name : String} {t : FieldType} {default : Option Json}
    {fields : List (String × FieldType × Option Json)} {es : List (String × Json)}
    (hnames : es.map Prod.fst = ((name, t, default) :: fields).map Prod.fst)
    (h : validateInOrder sc ((name, t, default) :: fields) es = some es) :
    ∃ v tail, es = (name, v) :: tail ∧ validate sc t v = some v ∧
      tail.map Prod.fst = fields.map Prod.fst ∧ validateInOrder sc fields tail = some tail := by
  cases es with
  | nil => cases hnames
  | cons e tail =>
      obtain ⟨key, v⟩ := e
      obtain ⟨hkey, htail⟩ := List.cons_eq_cons.mp hnames
      obtain rfl : key = name := hkey
      rw [validateInOrder] at h
      obtain ⟨w, hw, h⟩ := Option.bind_eq_some_iff.mp h
      obtain ⟨ws, hws, h⟩ := Option.map_eq_some_iff.mp h
      obtain ⟨hhead, rfl⟩ := List.cons_eq_cons.mp h
      obtain rfl : w = v := congrArg Prod.snd hhead
      exact ⟨w, ws, rfl, hw, htail, hws⟩

/-- Reading an object that has every field in order uses no default. -/
theorem validateInOrder_congr {fields fields' : List (String × FieldType × Option Json)}
    (h : fields.map (fun f => (f.1, f.2.1)) = fields'.map fun f => (f.1, f.2.1))
    (es : List (String × Json)) :
    validateInOrder sc fields es = validateInOrder sc fields' es := by
  induction fields generalizing fields' es with
  | nil =>
      obtain rfl : fields' = [] := List.map_eq_nil_iff.mp h.symm
      rfl
  | cons f fields ih =>
      cases fields' with
      | nil => cases h
      | cons f' fields' =>
          obtain ⟨name, t, default⟩ := f
          obtain ⟨name', t', default'⟩ := f'
          obtain ⟨hhead, htail⟩ := List.cons_eq_cons.mp h
          obtain ⟨rfl, rfl⟩ := Prod.mk.injEq .. ▸ hhead
          cases es with
          | nil => rfl
          | cons e es => rw [validateInOrder, validateInOrder, ih htail]

/-- **A dump is read as it is** by a model that differs in its defaults. -/
theorem validate_dump_model (h : sc.Lawful) (hstable : sc.Stable)
    {fields fields' : List (String × FieldType × Option Json)}
    (hsettled : Settled sc (.model fields))
    (hsame : fields.map (fun f => (f.1, f.2.1)) = fields'.map fun f => (f.1, f.2.1))
    {v w : Json} (hw : validate sc (.model fields) v = some w) :
    validate sc (.model fields') w = some w := by
  obtain ⟨es, ws, hws, rfl⟩ := exists_fields_of_validate hw
  obtain ⟨hnames, hkept⟩ := validateFields_dump h hstable fields hsettled.2 es ws hws
  have hnames' : fields.map Prod.fst = fields'.map Prod.fst := by
    have hfst := congrArg (List.map Prod.fst) hsame
    rwa [List.map_map, List.map_map] at hfst
  rw [validate_model (hnames.trans hnames') (hnames' ▸ hsettled.1),
    ← validateInOrder_congr hsame, hkept, Option.map_some]

end Schema
