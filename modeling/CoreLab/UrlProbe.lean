import CoreLab.LabUrlService
import CoreLab.Lib.Transactions

/-!
# CoreLab.UrlProbe

The edits of the URLs of a lab beside the probes.  A transaction reads the list of a lab in its
snapshot and writes the whole list back: an edit at once, a probe after seconds of network
traffic.

* `Edited.get?`, `Probed.get?` — what a transaction is about to commit;
* `replayed_commit` — a commit over the list that its transaction read;
* `kept_run` — no edit is lost in an interleaving whose commits are all such.
-/

namespace CoreLab

open Relational Transition Transactions
open SetupService (UrlEntry)

namespace UrlProbe

open LabUrlService

/-! ## requests -/

inductive Change where
  | add (kind source : String) (makePrimary : Bool)
  | remove
deriving DecidableEq, Repr

structure Edit where
  labId : Nat
  url : String
  change : Change
deriving DecidableEq, Repr

/-- The call of the service. -/
def Edit.run (e : Edit) (publicUrls : List Item) : Except LabUrlError (List Item) :=
  match e.change with
  | .add kind source makePrimary => addUrl publicUrls e.url kind source makePrimary
  | .remove => .ok (removeUrl publicUrls e.url)

inductive Request where
  | urlProbeTick
  | probeNow (labId : Nat)
  | edit (e : Edit)
deriving DecidableEq, Repr

/-- Where a request is. -/
inductive Phase where
  | received (r : Request)
  /-- In `probe_lab` of the first of these labs. -/
  | probing (labIds : List Nat)
  | edited (e : Edit)
  /-- A removal that found nothing to remove. -/
  | notFound
  /-- Committed. -/
  | probed
  | done (e : Edit)
  | refused
deriving DecidableEq, Repr

/-- What a request learns: the answers of the probes, and when they are in. -/
inductive Input where
  | proceed
  | answers (answers : Option (List Bool)) (now : String)
deriving DecidableEq, Repr

abbrev Labs := Dict Nat (List Item)

abbrev System := Transactions.System Nat (List Item) Phase

abbrev Tx := Transactions.Tx Nat (List Item) Phase

/-- The session sees no change of the column. -/
def unchanged (publicUrls publicUrls' : List Item) : Bool :=
  publicUrls'.map (·.map (·.entries)) = publicUrls.map (·.map (·.entries))

/-- The flush of a column. -/
def flush (labId : Nat) (publicUrls publicUrls' : List Item) (p : Phase) :
    Op Nat (List Item) Phase :=
  if unchanged publicUrls publicUrls' then .goto p else .update labId (fun _ => publicUrls') p

/-- The phase of an edit after its flush. -/
def Edit.outcome (e : Edit) (publicUrls publicUrls' : List Item) : Phase :=
  if e.change = .remove ∧ (loadEntries publicUrls').length = (loadEntries publicUrls).length then
    .notFound
  else .edited e

/-- The steps of `url_probe_tick` and of the endpoints. -/
def next : Phase → Labs → Input → Option (Op Nat (List Item) Phase)
  | .received .urlProbeTick, labs, .proceed => some (.goto (.probing (labs.entries.map (·.1))))
  | .received (.probeNow labId), labs, .proceed =>
    if (labs.get? labId).isSome then some (.goto (.probing [labId])) else some (.commit .refused)
  | .received (.edit e), labs, .proceed =>
    match labs.get? e.labId with
    | none => some (.commit .refused)
    | some publicUrls =>
      match e.run publicUrls with
      | .error _ => some (.commit .refused)
      | .ok publicUrls' =>
        some (flush e.labId publicUrls publicUrls' (e.outcome publicUrls publicUrls'))
  | .probing (labId :: labIds), labs, .answers answers now =>
    (labs.get? labId).map fun publicUrls =>
      match probeLab publicUrls answers now with
      | none => .rollback
      | some publicUrls' => flush labId publicUrls publicUrls' (.probing labIds)
  | .probing [], _, .proceed => some (.commit .probed)
  | .edited e, _, .proceed => some (.commit (.done e))
  -- the 404 commits what was flushed
  | .notFound, _, .proceed => some (.commit .refused)
  | _, _, _ => none

def program : Program Nat (List Item) Phase Request Input := ⟨.received, next⟩

/-! ## runs -/

/-- The system, and the edits that were committed, in order. -/
structure State where
  sys : System
  edits : List Edit := []

/-- The edit that a step commits. -/
def committed (sys sys' : System) : Action Request Input → List Edit
  | .turn i _ =>
    match sys.txs[i]?.map (·.phase), sys'.txs[i]?.map (·.phase) with
    | some (Phase.edited _), some (Phase.done e) => [e]
    | _, _ => []
  | .start _ | .kill _ => []

/-- One step. -/
def step (st : State) (a : Action Request Input) : Option State :=
  (st.sys.step program a).map fun sys' => ⟨sys', st.edits ++ committed st.sys sys' a⟩

/-! ## the property and its condition -/

/-- The entries of a lab. -/
def entriesOf (labs : Labs) (labId : Nat) : List UrlEntry :=
  ((labs.get? labId).map loadEntries).getD []

/-- The entry of a URL. -/
def entry (labs : Labs) (labId : Nat) (url : String) : Option UrlEntry :=
  (entriesOf labs labId).find? (·.url = url)

/-- The last edit of a URL. -/
def lastEdit (edits : List Edit) (labId : Nat) (url : String) : Option Edit :=
  (edits.filter fun e => e.labId = labId ∧ e.url = url).getLast?

/-- The flag of a URL after an edit of its lab. -/
def Edit.flag (e : Edit) (url : String) (before : Bool) : Bool :=
  match e.change with
  | .add _ _ makePrimary => if makePrimary then e.url = url else before
  | .remove => if e.url = url then false else before

/-- The flag that the edits of a lab, one after the other, give to a URL. -/
def flagAfter (edits : List Edit) (labId : Nat) (url : String) (before : Bool) : Bool :=
  edits.foldl (fun b e => if e.labId = labId then e.flag url b else b) before

/-- Each URL is as its last edit has left it. -/
structure Kept (labs₀ labs : Labs) (edits : List Edit) : Prop where
  added : ∀ labId url kind source makePrimary,
    lastEdit edits labId url = some ⟨labId, url, .add kind source makePrimary⟩ →
    ∃ e, entry labs labId url = some e ∧ e.kind = kind ∧ e.source = source ∧
      e.primary = flagAfter edits labId url (((entry labs₀ labId url).map (·.primary)).getD false)
  removed : ∀ labId url, lastEdit edits labId url = some ⟨labId, url, .remove⟩ →
    url ∉ (entriesOf labs labId).map (·.url)

/-- The entries of a lab, without the stamps. -/
def columns (labs : Labs) (labId : Nat) : List (String × String × String × Bool) :=
  (entriesOf labs labId).map fun e => (e.url, e.kind, e.source, e.primary)

/-- A commit of an edit, or of lists that were written, is over what its transaction read, up to
the stamps. -/
def readCurrent (sys : System) : Action Request Input → Bool
  | .turn i _ => sys.txs[i]?.all fun tx =>
    let same (labId : Nat) : Bool := columns sys.rows labId = columns tx.snapshot labId
    match tx.phase with
    | .edited e => same e.labId
    | .probing [] | .notFound => tx.written.entries.all fun e => same e.1
    | _ => true
  | .start _ | .kill _ => true

def ReadCurrent (st : State) (a : Action Request Input) : Prop := readCurrent st.sys a = true

instance (st : State) (a : Action Request Input) : Decidable (ReadCurrent st a) :=
  inferInstanceAs (Decidable (_ = _))

/-! ## what is shown of a URL -/

/-- The kind, the source and the flag of the entry of a URL. -/
def shown (entries : List UrlEntry) (url : String) : Option (String × String × Bool) :=
  (entries.find? (·.url = url)).map fun e => (e.kind, e.source, e.primary)

/-- What is shown of a URL after an edit of its lab. -/
def Edit.shown (e : Edit) (url : String) (before : Option (String × String × Bool)) :
    Option (String × String × Bool) :=
  match e.change with
  | .add kind source makePrimary =>
    if e.url = url then some (kind, source, (before.map (·.2.2)).getD false || makePrimary)
    else if makePrimary then before.map fun b => (b.1, b.2.1, false)
    else before
  | .remove => if e.url = url then none else before

variable {entries entries' : List UrlEntry} {publicUrls publicUrls' : List Item} {e : Edit}

/-- The stamps are not shown. -/
theorem shown_congr (url : String)
    (h : entries'.map (fun e => (e.url, e.kind, e.source, e.primary)) =
      entries.map fun e => (e.url, e.kind, e.source, e.primary)) :
    shown entries' url = shown entries url := by
  have hcolumns : ∀ l : List UrlEntry, shown l url =
      ((l.map fun e => (e.url, e.kind, e.source, e.primary)).find? (·.1 = url)).map (·.2) := by
    intro l
    rw [List.find?_map, Option.map_map]
    rfl
  rw [hcolumns, h, ← hcolumns]

theorem find?_touch {f : UrlEntry → UrlEntry} (hf : ∀ e, (f e).url = e.url) (url u : String) :
    (touch url f entries).find? (·.url = u) =
      if url = u then (entries.find? (·.url = u)).map f else entries.find? (·.url = u) := by
  induction entries with
  | nil => simp [touch]
  | cons e es ih =>
      by_cases hurl : e.url = url
      · rw [touch, if_pos hurl, List.find?_cons, List.find?_cons, hf, hurl]
        by_cases hu : url = u <;> simp [hu]
      · rw [touch, if_neg hurl, List.find?_cons, List.find?_cons, ih]
        by_cases hu : e.url = u
        · have hne : ¬ url = u := fun h => hurl (hu.trans h.symm)
          simp [hu, hne]
        · simp [hu]

/-- **The added URL** is shown as the edit says, and the others lose their flag where the edit
takes it. -/
theorem shown_add (entries : List UrlEntry) (labId : Nat) (url kind source u : String)
    (makePrimary : Bool) :
    shown (add entries url kind source makePrimary) u =
      Edit.shown ⟨labId, url, .add kind source makePrimary⟩ u (shown entries u) := by
  have hothers : (if makePrimary then entries.map fun e => { e with primary := false }
      else entries).find? (·.url = u) =
        (entries.find? (·.url = u)).map fun e => { e with primary := !makePrimary && e.primary } := by
    cases makePrimary with
    | false => simp
    | true =>
        rw [if_pos rfl, List.find?_map]
        rfl
  rw [shown, add, Edit.shown]
  split
  · next hany =>
      rw [find?_touch (by intro _; rfl), hothers]
      by_cases hurl : url = u
      · subst hurl
        obtain ⟨e, he⟩ := Option.isSome_iff_exists.mp (List.find?_isSome.mpr (List.any_eq_true.mp hany))
        cases makePrimary <;> simp [shown, he]
      · cases makePrimary <;> simp [shown, hurl, Function.comp_def]
  · next hany =>
      have hnone : entries.find? (·.url = url) = none := by simpa using hany
      rw [List.find?_append, hothers]
      by_cases hurl : url = u
      · subst hurl
        simp [shown, hnone]
      · cases makePrimary <;> simp [shown, hurl, Function.comp_def]

theorem shown_remove (entries : List UrlEntry) (labId : Nat) (url u : String) :
    shown (entries.filter (·.url ≠ url)) u = Edit.shown ⟨labId, url, .remove⟩ u (shown entries u) := by
  rw [shown, List.find?_filter, Edit.shown]
  by_cases hurl : url = u
  · subst hurl
    simp
  · have hboth : (fun e : UrlEntry => decide (decide (e.url ≠ url) = true ∧ decide (e.url = u) = true)) =
        fun e => decide (e.url = u) := by
      funext e
      by_cases he : e.url = u
      · simp [he, Ne.symm hurl]
      · simp [he]
    rw [hboth]
    exact (if_neg hurl).symm

/-- A service call that goes through. -/
theorem Edit.shown_run (h : e.run publicUrls = .ok publicUrls') (u : String) :
    UrlProbe.shown (loadEntries publicUrls') u = e.shown u (UrlProbe.shown (loadEntries publicUrls) u) := by
  obtain ⟨labId, url, change⟩ := e
  cases change with
  | add kind source makePrimary =>
      rw [addUrl_eq_ok h, loadEntries_persist, shown_add _ labId]
  | remove =>
      obtain rfl := Except.ok.inj h
      rw [removeUrl, loadEntries_persist, shown_remove _ labId]

theorem shown_probeLab {answers : Option (List Bool)} {now : String}
    (h : probeLab publicUrls answers now = some publicUrls') (u : String) :
    shown (loadEntries publicUrls') u = shown (loadEntries publicUrls) u := by
  simp only [probeLab] at h
  split at h
  · rw [Option.some.inj h]
  · obtain ⟨answers, hanswers, rfl⟩ := Option.map_eq_some_iff.mp h
    have hlength : answers.length = (loadEntries publicUrls).length := by
      simpa using (Option.filter_eq_some_iff.mp hanswers).2
    rw [loadEntries_persist]
    exact shown_congr u (map_stamped (fun _ => rfl) hlength)

/-- A removal that takes nothing away shows what it found. -/
theorem shown_notFound (h : e.run publicUrls = .ok publicUrls')
    (hphase : e.outcome publicUrls publicUrls' = .notFound) (u : String) :
    shown (loadEntries publicUrls') u = shown (loadEntries publicUrls) u := by
  obtain ⟨labId, url, change⟩ := e
  rw [Edit.outcome] at hphase
  split at hphase
  · next hremove =>
      obtain ⟨hchange, hlength⟩ := hremove
      obtain rfl : change = .remove := hchange
      obtain rfl := Except.ok.inj h
      rw [removeUrl, loadEntries_persist] at hlength ⊢
      rw [List.filter_eq_self.mpr (List.length_filter_eq_length_iff.mp hlength)]
  · cases hphase

/-! ## replaying the edits -/

/-- What the edits of a lab, one after the other, show of a URL. -/
def replay (edits : List Edit) (labId : Nat) (url : String)
    (before : Option (String × String × Bool)) : Option (String × String × Bool) :=
  edits.foldl (fun b e => if e.labId = labId then e.shown url b else b) before

variable {edits : List Edit} {labId : Nat} {url : String}
  {before : Option (String × String × Bool)}

theorem replay_concat : replay (edits ++ [e]) labId url before =
    if e.labId = labId then e.shown url (replay edits labId url before)
    else replay edits labId url before := by
  rw [replay, List.foldl_append]
  rfl

theorem lastEdit_concat : lastEdit (edits ++ [e]) labId url =
    if e.labId = labId ∧ e.url = url then some e else lastEdit edits labId url := by
  rw [lastEdit, List.filter_append, List.filter_singleton]
  by_cases h : e.labId = labId ∧ e.url = url
  · simp [h]
  · simp [h, lastEdit]

theorem Edit.flag_shown (e : Edit) (url : String) (before : Option (String × String × Bool)) :
    ((e.shown url before).map (·.2.2)).getD false =
      e.flag url ((before.map (·.2.2)).getD false) := by
  obtain ⟨labId, u, change⟩ := e
  cases change with
  | remove => by_cases hurl : u = url <;> simp [Edit.shown, Edit.flag, hurl]
  | add kind source makePrimary =>
      cases makePrimary <;> by_cases hurl : u = url <;> cases before <;>
        simp [Edit.shown, Edit.flag, hurl]

/-- The flag that is shown at the end is the one that the edits give. -/
theorem flag_replay (edits : List Edit) (labId : Nat) (url : String)
    (before : Option (String × String × Bool)) :
    ((replay edits labId url before).map (·.2.2)).getD false =
      flagAfter edits labId url ((before.map (·.2.2)).getD false) := by
  induction edits generalizing before with
  | nil => rfl
  | cons e edits ih =>
      rw [replay, List.foldl_cons, ← replay, ih, flagAfter, flagAfter, List.foldl_cons]
      split
      · rw [Edit.flag_shown]
      · rfl

/-- An edit of another URL leaves the kind and the source that are shown. -/
theorem Edit.shown_of_ne (hurl : e.url ≠ url) (before : Option (String × String × Bool)) :
    (e.shown url before).map (fun b => (b.1, b.2.1)) = before.map fun b => (b.1, b.2.1) := by
  obtain ⟨labId, u, change⟩ := e
  cases change with
  | remove => rw [Edit.shown, if_neg hurl]
  | add kind source makePrimary =>
      cases makePrimary <;> simp [Edit.shown, hurl, Function.comp_def]

/-- The last edit of a URL decides the kind and the source that are shown. -/
theorem replay_of_lastEdit (h : lastEdit edits labId url = some e)
    (before : Option (String × String × Bool)) :
    (replay edits labId url before).map (fun b => (b.1, b.2.1)) =
      match e.change with
      | .add kind source _ => some (kind, source)
      | .remove => none := by
  induction edits using List.reverseRecOn with
  | nil => cases h
  | append_singleton edits last ih =>
      rw [lastEdit_concat] at h
      rw [replay_concat]
      by_cases hlab : last.labId = labId
      · by_cases hurl : last.url = url
        · rw [if_pos ⟨hlab, hurl⟩, Option.some.injEq] at h
          subst h
          rw [if_pos hlab, Edit.shown]
          cases last.change <;> simp [hurl]
        · rw [if_neg fun hboth => hurl hboth.2] at h
          rw [if_pos hlab, Edit.shown_of_ne hurl, ih h]
      · rw [if_neg fun hboth => hlab hboth.1] at h
        rw [if_neg hlab, ih h]

/-! ## what a transaction is about to commit -/

/-- The lists that it wrote show what it has read. -/
def Probed (tx : Tx) : Prop :=
  ∀ labId publicUrls, tx.written.get? labId = some publicUrls →
    ∀ url, shown (loadEntries publicUrls) url = shown (entriesOf tx.snapshot labId) url

/-- It wrote the list of one lab at most, which shows what the edit makes of what it has read. -/
structure Edited (tx : Tx) (e : Edit) : Prop where
  only : ∀ labId, labId ≠ e.labId → tx.written.get? labId = none
  list : ∃ publicUrls, tx.snapshot.get? e.labId = some publicUrls ∧ ∀ url,
    shown (loadEntries ((tx.written.get? e.labId).getD publicUrls)) url =
      e.shown url (shown (loadEntries publicUrls) url)

/-- What holds of a transaction, by its phase. -/
def Holds (tx : Tx) (_ : Labs) : Prop :=
  match tx.phase with
  | .received _ => tx.written = .empty
  | .probing _ | .notFound => Probed tx
  | .edited e => Edited tx e
  | .probed | .done _ | .refused => False

section Steps

variable {tx tx' : Tx} {labs labs' labs₀ : Labs} {p : Phase}

theorem eq_of_unchanged (h : unchanged publicUrls publicUrls' = true) : publicUrls' = publicUrls := by
  have hentries : Function.Injective (fun d : Dict String Value => d.entries) := by
    rintro ⟨entries, _⟩ ⟨entries', _⟩ rfl
    rfl
  have hitems := List.map_injective_iff.mpr (Option.map_injective hentries)
  exact hitems (of_decide_eq_true h)

/-- A flush that writes nothing had nothing to write. -/
theorem after_flush (h : tx.after labs (flush labId publicUrls publicUrls' p) = some tx') :
    tx'.phase = p ∧ tx'.snapshot = tx.snapshot ∧
      (tx'.written = tx.written.set labId publicUrls' ∨
        tx'.written = tx.written ∧ publicUrls' = publicUrls) := by
  rw [flush] at h
  split at h
  · next hsame =>
      obtain rfl := Option.some.inj h
      exact ⟨rfl, rfl, .inr ⟨rfl, eq_of_unchanged hsame⟩⟩
  · obtain ⟨_, -, rfl⟩ := Tx.after_update h
    exact ⟨rfl, rfl, .inl rfl⟩

theorem entriesOf_of_get? (h : labs.get? labId = some publicUrls) :
    entriesOf labs labId = loadEntries publicUrls := by
  rw [entriesOf, h]
  rfl

theorem view_of_empty (h : tx.written = .empty) (labId : Nat) :
    tx.view.get? labId = tx.snapshot.get? labId := by
  rw [Tx.get?_view, h, Dict.get?_empty, Option.none_or]

theorem probed_of_empty (h : tx.written = .empty) : Probed tx := by
  intro labId publicUrls hwritten
  rw [h] at hwritten
  cases hwritten

/-- What a plain read of a probe returns shows what it has read. -/
theorem Probed.view (h : Probed tx) (hview : tx.view.get? labId = some publicUrls) (url : String) :
    shown (loadEntries publicUrls) url = shown (entriesOf tx.snapshot labId) url := by
  rw [Tx.get?_view] at hview
  cases hwritten : tx.written.get? labId with
  | some written =>
      rw [hwritten, Option.some_or] at hview
      exact h labId publicUrls (hview ▸ hwritten) url
  | none =>
      rw [hwritten, Option.none_or] at hview
      rw [entriesOf_of_get? hview]

/-- One more list, with the stamps of its probes. -/
theorem Probed.flush (h : Probed tx) (hsnapshot : tx'.snapshot = tx.snapshot)
    (hshown : ∀ url, shown (loadEntries publicUrls) url = shown (entriesOf tx.snapshot labId) url)
    (hwritten : tx'.written = tx.written.set labId publicUrls ∨ tx'.written = tx.written) :
    Probed tx' := by
  intro l items hitems
  rw [hsnapshot]
  rcases hwritten with hset | hsame
  · rw [hset, Dict.get?_set] at hitems
    split at hitems
    · next hl =>
        obtain rfl := Option.some.inj hitems
        exact hl ▸ hshown
    · exact h l items hitems
  · exact h l items (hsame ▸ hitems)

/-- The flush of an edit. -/
theorem edited_flush (hempty : tx.written = .empty)
    (hread : tx.snapshot.get? e.labId = some publicUrls) (hrun : e.run publicUrls = .ok publicUrls')
    (hsnapshot : tx'.snapshot = tx.snapshot)
    (hwritten : tx'.written = tx.written.set e.labId publicUrls' ∨
      tx'.written = tx.written ∧ publicUrls' = publicUrls) : Edited tx' e := by
  rcases hwritten with hset | ⟨hsame, rfl⟩
  · refine ⟨fun l hl => ?_, publicUrls, hsnapshot ▸ hread, fun url => ?_⟩
    · rw [hset, Dict.get?_set, if_neg hl, hempty, Dict.get?_empty]
    · rw [hset, Dict.get?_set, if_pos rfl, Option.getD_some, e.shown_run hrun]
  · rw [hempty] at hsame
    refine ⟨fun l _ => by rw [hsame, Dict.get?_empty], _, hsnapshot ▸ hread, fun url => ?_⟩
    rw [hsame, Dict.get?_empty, Option.getD_none, ← e.shown_run hrun]

/-- **A transaction** writes what it makes of what it has read. -/
theorem holds_own {input : Input} {op : Op Nat (List Item) Phase} (h : Holds tx labs)
    (hop : next tx.phase tx.view input = some op) (hafter : tx.after labs op = some tx') :
    Holds tx' labs := by
  unfold Holds at h
  cases hphase : tx.phase with
  | received r =>
      simp only [hphase] at h hop
      cases input with
      | answers answers now => cases r <;> cases hop
      | proceed =>
          cases r with
          | urlProbeTick =>
              obtain rfl := Option.some.inj hop
              obtain rfl := Option.some.inj hafter
              exact probed_of_empty h
          | probeNow labId =>
              simp only [next] at hop
              split at hop
              · obtain rfl := Option.some.inj hop
                obtain rfl := Option.some.inj hafter
                exact probed_of_empty h
              · obtain rfl := Option.some.inj hop
                cases hafter
          | edit e =>
              simp only [next, view_of_empty h] at hop
              cases hread : tx.snapshot.get? e.labId with
              | none =>
                  simp only [hread, Option.some.injEq] at hop
                  subst hop
                  cases hafter
              | some publicUrls =>
                  simp only [hread] at hop
                  cases hrun : e.run publicUrls with
                  | error _ =>
                      simp only [hrun, Option.some.injEq] at hop
                      subst hop
                      cases hafter
                  | ok publicUrls' =>
                      simp only [hrun, Option.some.injEq] at hop
                      subst hop
                      obtain ⟨hphase', hsnapshot, hwritten⟩ := after_flush hafter
                      unfold Holds
                      by_cases hnot : e.outcome publicUrls publicUrls' = .notFound
                      · simp only [hphase', hnot]
                        refine (probed_of_empty h).flush hsnapshot (fun url => ?_)
                          (hwritten.imp_right And.left)
                        rw [entriesOf_of_get? hread, shown_notFound hrun hnot]
                      · have hedited : e.outcome publicUrls publicUrls' = .edited e := by
                          unfold Edit.outcome at hnot ⊢
                          split at hnot <;> simp_all
                        simp only [hphase', hedited]
                        exact edited_flush h hread hrun hsnapshot hwritten
  | probing labIds =>
      simp only [hphase] at h hop
      cases labIds with
      | nil =>
          cases input with
          | answers answers now => cases hop
          | proceed =>
              obtain rfl := Option.some.inj hop
              cases hafter
      | cons labId labIds =>
          cases input with
          | proceed => cases hop
          | answers answers now =>
              obtain ⟨publicUrls, hview, rfl⟩ := Option.map_eq_some_iff.mp hop
              cases hprobe : probeLab publicUrls answers now with
              | none =>
                  rw [hprobe] at hafter
                  cases hafter
              | some publicUrls' =>
                  rw [hprobe] at hafter
                  obtain ⟨hphase', hsnapshot, hwritten⟩ := after_flush hafter
                  unfold Holds
                  simp only [hphase']
                  refine Probed.flush h hsnapshot (fun url => ?_) (hwritten.imp_right And.left)
                  rw [shown_probeLab hprobe, Probed.view h hview]
  | edited e | notFound =>
      simp only [hphase] at hop
      cases input with
      | answers answers now => cases hop
      | proceed =>
          obtain rfl := Option.some.inj hop
          cases hafter
  | probed | done e | refused => simp only [hphase] at h

theorem rules : Rules program (fun _ _ => True) Holds where
  stable _ _ _ _ h := h
  start _ _ _ := rfl
  own _ _ _ _ _ _ _ _ h hop hafter := holds_own h hop hafter

/-! ## no edit is lost -/

variable {sys sys' : System} {st st' : State} {i : Nat} {input : Input} {a : Action Request Input}

/-- Each URL is shown as the edits that were committed make it. -/
def Replayed (labs₀ labs : Labs) (edits : List Edit) : Prop :=
  ∀ labId url, shown (entriesOf labs labId) url =
    replay edits labId url (shown (entriesOf labs₀ labId) url)

theorem flush_ne_commit {q : Phase} : flush labId publicUrls publicUrls' q ≠ .commit p := by
  rw [flush]
  split <;> exact nofun

/-- A request that commits before a flush is refused. -/
theorem refused_of_received {r : Request}
    (hop : next (.received r) labs input = some (.commit p)) : p = .refused := by
  cases input with
  | answers answers now => cases r <;> cases hop
  | proceed =>
      cases r with
      | urlProbeTick => cases hop
      | probeNow labId =>
          simp only [next] at hop
          split at hop
          · cases hop
          · exact (Op.commit.inj (Option.some.inj hop)).symm
      | edit e =>
          simp only [next] at hop
          split at hop
          · exact (Op.commit.inj (Option.some.inj hop)).symm
          · split at hop
            · exact (Op.commit.inj (Option.some.inj hop)).symm
            · exact absurd (Option.some.inj hop) flush_ne_commit

/-- A commit is one of an edit, or shows what was read. -/
theorem commit_cases (hi : sys.txs[i]? = some tx) (h : Holds tx sys.rows)
    (hok : readCurrent sys (.turn i input) = true)
    (hop : next tx.phase tx.view input = some (.commit p)) :
    (∃ e, tx.phase = .edited e ∧ p = .done e ∧ Edited tx e ∧
      columns sys.rows e.labId = columns tx.snapshot e.labId) ∨
    (∀ e, p ≠ .done e) ∧ Probed tx ∧ ∀ labId publicUrls,
      tx.written.get? labId = some publicUrls → columns sys.rows labId = columns tx.snapshot labId := by
  have hread : ∀ {q}, tx.phase = q → (q = .probing [] ∨ q = .notFound) → ∀ labId publicUrls,
      tx.written.get? labId = some publicUrls → columns sys.rows labId = columns tx.snapshot labId := by
    intro q hq hphases labId publicUrls hwritten
    have hall : (tx.written.entries.all fun e =>
        decide (columns sys.rows e.1 = columns tx.snapshot e.1)) = true := by
      rcases hphases with rfl | rfl <;> simpa [readCurrent, hi, hq] using hok
    exact of_decide_eq_true
      (List.all_eq_true.mp hall (labId, publicUrls) (Dict.get?_eq_some_iff.mp hwritten))
  unfold Holds at h
  cases hphase : tx.phase with
  | received r =>
      simp only [hphase] at h hop
      obtain rfl := refused_of_received hop
      exact .inr ⟨nofun, probed_of_empty h, fun labId publicUrls hwritten => by
        rw [h, Dict.get?_empty] at hwritten
        cases hwritten⟩
  | probing labIds =>
      simp only [hphase] at h hop
      cases labIds with
      | nil =>
          cases input with
          | answers answers now => cases hop
          | proceed =>
              obtain rfl := Op.commit.inj (Option.some.inj hop)
              exact .inr ⟨nofun, h, hread hphase (.inl rfl)⟩
      | cons labId labIds =>
          cases input with
          | proceed => cases hop
          | answers answers now =>
              obtain ⟨publicUrls, -, hprobe⟩ := Option.map_eq_some_iff.mp hop
              split at hprobe
              · cases hprobe
              · exact absurd hprobe flush_ne_commit
  | edited e =>
      simp only [hphase] at h hop
      cases input with
      | answers answers now => cases hop
      | proceed =>
          obtain rfl := Op.commit.inj (Option.some.inj hop)
          exact .inl ⟨e, rfl, rfl, h, by simpa [readCurrent, hi, hphase] using hok⟩
  | notFound =>
      simp only [hphase] at h hop
      cases input with
      | answers answers now => cases hop
      | proceed =>
          obtain rfl := Op.commit.inj (Option.some.inj hop)
          exact .inr ⟨nofun, h, hread hphase (.inr rfl)⟩
  | probed | done e | refused => simp only [hphase] at h

/-- The entries of a lab after a commit. -/
theorem shown_flushed (labs : Labs) (labId : Nat) (url : String) :
    shown (entriesOf (tx.flushed labs) labId) url =
      ((tx.written.get? labId).map fun publicUrls => shown (loadEntries publicUrls) url).getD
        (shown (entriesOf labs labId) url) := by
  rw [entriesOf, Tx.get?_flushed]
  cases tx.written.get? labId <;> rfl

/-- **A commit of a probe** over what it has read shows what was committed. -/
theorem replayed_probe (h : Replayed labs₀ labs edits) (hprobed : Probed tx)
    (hcurrent : ∀ labId publicUrls, tx.written.get? labId = some publicUrls →
      columns labs labId = columns tx.snapshot labId) : Replayed labs₀ (tx.flushed labs) edits := by
  intro labId url
  rw [← h, shown_flushed]
  cases hwritten : tx.written.get? labId with
  | none => rfl
  | some publicUrls =>
      rw [Option.map_some, Option.getD_some, hprobed labId publicUrls hwritten]
      exact (shown_congr url (hcurrent labId publicUrls hwritten)).symm

/-- **A commit of an edit** over what it has read is one edit more. -/
theorem replayed_edit (h : Replayed labs₀ labs edits) (hedited : Edited tx e)
    (hcurrent : columns labs e.labId = columns tx.snapshot e.labId) :
    Replayed labs₀ (tx.flushed labs) (edits ++ [e]) := by
  intro labId url
  rw [replay_concat, ← h, shown_flushed]
  obtain ⟨publicUrls, hread, hlist⟩ := hedited.list
  have hcommitted : shown (entriesOf labs e.labId) url = shown (loadEntries publicUrls) url := by
    rw [← entriesOf_of_get? hread]
    exact shown_congr url hcurrent
  by_cases hlab : e.labId = labId
  · subst hlab
    rw [if_pos rfl, hcommitted, ← hlist]
    cases tx.written.get? e.labId <;> rfl
  · rw [if_neg hlab, hedited.only labId (Ne.symm hlab)]
    rfl

theorem committed_set (hi : sys.txs[i]? = some tx) (labs : Labs) (tx' : Tx) (input : Input) :
    committed sys { rows := labs, txs := sys.txs.set i tx' } (.turn i input) =
      match tx.phase, tx'.phase with
      | .edited _, .done e => [e]
      | _, _ => [] := by
  have hi' : (sys.txs.set i tx')[i]? = some tx' := (get?_set hi tx' i).trans (if_pos rfl)
  simp only [committed, hi, hi', Option.map_some]
  cases tx.phase <;> cases tx'.phase <;> rfl

theorem committed_eq_nil (hi : sys.txs[i]? = some tx) (labs : Labs)
    (hdone : ∀ e, tx'.phase ≠ .done e) (input : Input) :
    committed sys { rows := labs, txs := sys.txs.set i tx' } (.turn i input) = [] := by
  rw [committed_set hi]
  split
  · next e _ hphase => exact absurd hphase (hdone e)
  · rfl

/-- A transaction that is rolled back commits no edit. -/
theorem committed_ended (hi : sys.txs[i]? = some tx) (a : Action Request Input) :
    committed sys (sys.set i (tx.ended tx.phase)) a = [] := by
  cases a with
  | start request | kill j => rfl
  | turn j input =>
      have hsame : ((sys.set i (tx.ended tx.phase)).txs[j]?).map (·.phase) =
          sys.txs[j]?.map (·.phase) := by
        rw [System.set, get?_set hi]
        split
        · next hij => rw [hij, hi]; rfl
        · rfl
      simp only [committed, hsame]
      cases sys.txs[j]?.map (·.phase) with
      | none => rfl
      | some q => cases q <;> rfl

/-- What holds in every state: what the transactions are about to commit, and what is shown. -/
structure Safe (labs₀ : Labs) (st : State) : Prop where
  inv : Inv Holds st.sys
  replayed : Replayed labs₀ st.sys.rows st.edits

theorem not_done_of_holds (h : Holds tx labs) (e : Edit) : tx.phase ≠ .done e := by
  intro hphase
  unfold Holds at h
  simp only [hphase] at h

theorem safe_step (h : Safe labs₀ st) (hok : ReadCurrent st a) (hstep : step st a = some st') :
    Safe labs₀ st' := by
  obtain ⟨sys', hsys, rfl⟩ := Option.map_eq_some_iff.mp hstep
  have hinv : Inv Holds sys' := inv_step rules h.inv True.intro hsys
  refine ⟨hinv, ?_⟩
  cases step_cases hsys with
  | start request => simpa [committed] using h.replayed
  | moves hi hlive hop hwaits hafter =>
      next i input tx tx' op =>
      have hlive' : tx'.live = true := (frame_after hafter).2.trans hlive
      have hholds := hinv.held i tx' ((get?_set hi tx' i).trans (if_pos rfl)) hlive'
      have hnil := committed_eq_nil hi st.sys.rows (not_done_of_holds hholds) input
      simpa [System.set, hnil] using h.replayed
  | ends hi hlive =>
      next i tx =>
      rw [committed_ended hi, List.append_nil]
      exact h.replayed
  | commits hi hlive hop =>
      next i input tx p =>
      rcases commit_cases hi (h.inv.held i tx hi hlive) hok hop with
        ⟨e, hphase, rfl, hedited, hcurrent⟩ | ⟨hdone, hprobed, hcurrent⟩
      · rw [committed_set hi, hphase]
        exact replayed_edit h.replayed hedited hcurrent
      · rw [committed_eq_nil hi _ hdone, List.append_nil]
        exact replayed_probe h.replayed hprobed hcurrent

theorem map_entry {β : Type} (labs : Labs) (labId : Nat) (url : String)
    (f : String × String × Bool → β) :
    (entry labs labId url).map (fun e => f (e.kind, e.source, e.primary)) =
      (shown (entriesOf labs labId) url).map f := by
  rw [shown, Option.map_map]
  rfl

/-- The last edit of a URL is the one that its entry shows. -/
theorem kept_of_replayed (h : Replayed labs₀ labs edits) : Kept labs₀ labs edits where
  added labId url kind source makePrimary hlast := by
    have hkind := replay_of_lastEdit hlast (shown (entriesOf labs₀ labId) url)
    have hflag := flag_replay edits labId url (shown (entriesOf labs₀ labId) url)
    rw [← h, ← map_entry] at hkind hflag
    obtain ⟨e, he, hcolumns⟩ := Option.map_eq_some_iff.mp hkind
    rw [he, ← map_entry] at hflag
    exact ⟨e, he, (Prod.mk.inj hcolumns).1, (Prod.mk.inj hcolumns).2, hflag⟩
  removed labId url hlast := by
    have hnone := replay_of_lastEdit hlast (shown (entriesOf labs₀ labId) url)
    rw [← h, ← map_entry, Option.map_eq_none_iff] at hnone
    simpa [entry] using hnone

end Steps

/-- **Edits are not lost** in an interleaving in which every commit is over the lists that its
transaction has read, up to the stamps. -/
theorem kept_run {st : State} {as : List (Action Request Input)} (htxs : st.sys.txs = [])
    (hedits : st.edits = []) (hok : Meets step ReadCurrent st as) :
    Along step (fun _ _ st' => Kept st.sys.rows st'.sys.rows st'.edits) st as := by
  have hinit : Safe st.sys.rows st := ⟨.start htxs, fun labId url => by rw [hedits]; rfl⟩
  exact along_of_invariant (fun _ _ _ hs hok ht =>
    ⟨safe_step hs hok ht, kept_of_replayed (safe_step hs hok ht).replayed⟩) hinit hok

/-- The URL of a lab that was installed. -/
def lanUrl : UrlEntry :=
  { url := "http://10.0.0.5:8080", kind := "lan", source := "install_sh_probe", primary := true }

def oneUrl : State := { sys := { rows := Dict.empty.set 1 (persist [lanUrl]) } }

def addDomain : Edit := ⟨1, "https://lab.test", .add "custom_domain" "manual_admin" true⟩

/-- The edit after the probe. -/
def oneByOne : List (Action Request Input) :=
  [.start .urlProbeTick, .turn 0 .proceed, .turn 0 (.answers (some [true]) "t"), .turn 0 .proceed,
   .start (.edit addDomain), .turn 1 .proceed, .turn 1 .proceed]

theorem kept_run_oneByOne :
    Along step (fun _ _ st' => Kept oneUrl.sys.rows st'.sys.rows st'.edits) oneUrl oneByOne :=
  kept_run rfl rfl (by decide +kernel)

/-- The edit while the probe waits for its answers. -/
def meanwhile : List (Action Request Input) :=
  [.start .urlProbeTick, .turn 0 .proceed, .start (.edit addDomain), .turn 1 .proceed,
   .turn 1 .proceed, .turn 0 (.answers (some [true]) "t")]

def answered : State := (exec step oneUrl meanwhile).get (by decide +kernel)

theorem not_kept :
    ¬ ∀ (st : State) (as : List (Action Request Input)), st.sys.txs = [] → st.edits = [] →
      Along step (fun _ _ st' => Kept st.sys.rows st'.sys.rows st'.edits) st as := by
  intro h
  have halong := h oneUrl (meanwhile ++ [.turn 0 .proceed]) rfl rfl
  have hstep : step answered (.turn 0 .proceed) =
      some ((step answered (.turn 0 .proceed)).get (by decide +kernel)) := (Option.some_get _).symm
  have hkept := halong.step_of_exec (Option.some_get _).symm hstep
  have hgone : entry ((step answered (.turn 0 .proceed)).get (by decide +kernel)).sys.rows 1
      "https://lab.test" = none := by decide +kernel
  obtain ⟨e, he, -⟩ := hkept.added 1 "https://lab.test" "custom_domain" "manual_admin" true
    (by decide +kernel)
  rw [hgone] at he
  cases he

end UrlProbe

end CoreLab
