import CoreLab.BackendUrls

/-!
# CoreLab.UrlUpdates

What a new list of backend URLs does to the file of the agent: the document of the new file,
what loads from it, and from both when a request takes effect in full or not at all.

* `reassigned_rewrite`, `exists_load_rewrite` — the assignments of the new file, and what loads
  from it where it fits the rewriter;
* `plainText_of_load_rewrite`, `single_of_load_rewrite`, `list_of_load_rewrite` — URLs that need
  escapes do not come back, and a file with an array over several lines or with another
  spelling of the list does not load;
* `allOrNothing_iff` — when a request takes effect in full or not at all.
-/

namespace CoreLab

open Lines Toml

namespace BackendUrls

/-! ## the document of the new file -/

section Document

variable {urls : List Text} {text : Text} {l top nested : List Item}

/-- The assignment that is written. -/
def newPair (urls : List Text) : Key × Value := (listKey, .array (urls.map Value.string))

/-- Its item. -/
def newItem (urls : List Text) : Item :=
  (some (.keyValue [listKey] (.array (urls.map Value.string))), urlsLine urls)

theorem bare_listKey : Bare listKey :=
  ⟨by decide, List.all_eq_true.mp (by decide : listKey.all isBareKey = true)⟩

theorem crlf_of_plainText {url : Text} (h : PlainText url) : crlf url = url :=
  crlf_eq_self fun hmem => absurd (h _ hmem).2.2 (by decide)

theorem map_crlf_of_plainText (h : ∀ url ∈ urls, PlainText url) : urls.map crlf = urls :=
  (List.map_congr_left fun url hurl => crlf_of_plainText (h url hurl)).trans (List.map_id' urls)

theorem reads_newItem (hurls : urls ≠ []) (h : ∀ url ∈ urls, PlainText url) :
    Reads (newItem urls) := by
  obtain ⟨url, rest, rfl⟩ := List.exists_cons_of_ne_nil hurls
  exact reads_assigned bare_listKey h

theorem statementsOf_append (l l' : List Item) :
    statementsOf (l ++ l') = statementsOf l ++ statementsOf l' :=
  List.filterMap_append

theorem statementsOf_blank (text : Text) : statementsOf (blank text) = [] := by
  rw [blank]
  split <;> rfl

/-- URLs that need no escapes: the statements of the new file. -/
theorem statements_rewrite (h : items (joinLines (splitlines text)).length
    (joinLines (splitlines text)) = some l) (hsingle : Single l) (hurls : urls ≠ [])
    (hplain : ∀ url ∈ urls, PlainText url) :
    statements (crlf (rewriteBackendUrlsInToml text urls)) =
      some (statementsOf (itemsBefore l ++ newItem urls :: itemsAfter l)) := by
  obtain ⟨-, hreads⟩ := reads_of_items h
  have hnew := reads_newItem hurls hplain
  have hblank : ∀ x ∈ blank text, Reads x := by
    intro x hx
    rw [blank] at hx
    split at hx
    · cases hx
    · obtain rfl := List.mem_singleton.mp hx
      exact fun m rest _ => rfl
  have hall : ∀ x ∈ itemsBefore l ++ newItem urls :: (itemsAfter l ++ blank text), Reads x := by
    intro x hx
    rcases List.mem_append.mp hx with hx | hx
    · exact hreads x ((List.takeWhile_sublist _).subset hx)
    · rcases List.mem_cons.mp hx with rfl | hx
      · exact hnew
      · rcases List.mem_append.mp hx with hx | hx
        · exact hreads x ((List.filter_sublist.trans (List.dropWhile_sublist _)).subset hx)
        · exact hblank x hx
  have htext : crlf (rewriteBackendUrlsInToml text urls) ++ ['\n'] = joinLines
      ((itemsBefore l ++ newItem urls :: (itemsAfter l ++ blank text)).map Prod.snd) := by
    rw [crlf_rewrite h hsingle.firstTaken, map_crlf_of_plainText hplain, joinLines_append,
      linesAfter_of_single hsingle, joinLines_itemLines]
    simp only [List.map_append, joinLines_append, List.map_cons, joinLines_cons]
    rfl
  have hitems : items ((crlf (rewriteBackendUrlsInToml text urls)).length + 1)
      (crlf (rewriteBackendUrlsInToml text urls) ++ ['\n']) =
        some (itemsBefore l ++ newItem urls :: (itemsAfter l ++ blank text)) := by
    have hlength := congrArg List.length htext
    rw [List.length_append, List.length_singleton] at hlength
    rw [htext]
    exact items_of_reads hall hlength.symm.le
  have hcons : itemsBefore l ++ newItem urls :: (itemsAfter l ++ blank text) =
      (itemsBefore l ++ newItem urls :: itemsAfter l) ++ blank text := by simp
  rw [statements, hitems, Option.map_some]
  show some (statementsOf _) = _
  rw [hcons, statementsOf_append, statementsOf_blank, List.append_nil]

/-! ### its assignments -/

theorem statementsOf_cons_some {x : Item} {st : Statement} (h : x.1 = some st) (l : List Item) :
    statementsOf (x :: l) = st :: statementsOf l :=
  List.filterMap_cons_some h

theorem statementsOf_cons_none {x : Item} (h : x.1 = none) (l : List Item) :
    statementsOf (x :: l) = statementsOf l :=
  List.filterMap_cons_none h

theorem exists_of_assigns {p : Key → Bool} {st : Option Statement} (h : assigns p st = true) :
    ∃ k v, st = some (.keyValue [k] v) ∧ p k = true := by
  unfold assigns at h
  split at h
  · next k v => exact ⟨k, v, rfl, h⟩
  · cases h

/-- The items before the first table and the others, of a document that fits the rewriter. -/
structure Layout (top nested : List Item) : Prop where
  pairs : ∀ x ∈ top, isPair x.1 = true
  assigned : ∀ x ∈ top, taken x = true → assigns isUrlKey x.1 = true
  list : ∀ x ∈ top, taken x = false → assigns (· = listKey) x.1 = false
  late : ∀ a ∈ assignments isUrlKey [] (statementsOf nested), a.1 ≠ listKey
  untaken : ∀ x ∈ nested, taken x = false

theorem Layout.tail {x : Item} (h : Layout (x :: top) nested) : Layout top nested where
  pairs y hy := h.pairs y (List.mem_cons_of_mem x hy)
  assigned y hy := h.assigned y (List.mem_cons_of_mem x hy)
  list y hy := h.list y (List.mem_cons_of_mem x hy)
  late := h.late
  untaken := h.untaken

theorem top_append_table (l : List Item) : topItems l ++ tableItems l = l :=
  List.takeWhile_append_dropWhile

theorem isPair_of_mem_topItems {x : Item} (hx : x ∈ topItems l) : isPair x.1 = true :=
  List.mem_takeWhile_imp (p := fun y : Item => isPair y.1) hx

theorem headerAfter_of_isPair (h : ∀ x ∈ l, isPair x.1 = true) {st : Statement}
    (hst : st ∈ statementsOf l) : headerAfter [] st = [] := by
  obtain ⟨x, hx, hst⟩ := List.mem_filterMap.mp hst
  have hpair := h x hx
  rw [hst] at hpair
  cases st with
  | keyValue key v => rfl
  | table key => cases hpair
  | arrayTable key => cases hpair

theorem subject_ne_nil_of_mem_statementsOf (h : ∀ x ∈ l, Reads x) {st : Statement}
    (hst : st ∈ statementsOf l) : subject [] st ≠ [] := by
  obtain ⟨x, hx, hst⟩ := List.mem_filterMap.mp hst
  exact (h x hx).subject_ne_nil hst

/-- From the first table on nothing is assigned at the top. -/
theorem assignments_tableItems (h : ∀ x ∈ l, Reads x) (p : Key → Bool) :
    assignments p [] (statementsOf (tableItems l)) = [] := by
  have hreads : ∀ x ∈ tableItems l, Reads x := fun x hx =>
    h x ((List.dropWhile_sublist _).subset hx)
  cases htable : tableItems l with
  | nil => rfl
  | cons x rest =>
      rw [htable] at hreads
      obtain ⟨hx, hrest⟩ := List.forall_mem_cons.mp hreads
      have hpair : isPair x.1 = false := by
        have hne : tableItems l ≠ [] := by simp [htable]
        have hhead : isPair ((tableItems l).head hne).1 = false :=
          List.head_dropWhile_not (fun y : Item => isPair y.1) hne
        have hsame : (tableItems l).head hne = x := by simp [htable]
        rwa [hsame] at hhead
      cases hst : x.1 with
      | none =>
          rw [hst] at hpair
          cases hpair
      | some st =>
          have hsubject := hx.subject_ne_nil hst
          rw [statementsOf_cons_some hst, assignments]
          have hall : ∀ st' ∈ statementsOf rest, subject [] st' ≠ [] := fun st' hst' =>
            subject_ne_nil_of_mem_statementsOf hrest hst'
          cases st with
          | keyValue key v =>
              rw [hst] at hpair
              cases hpair
          | table key => exact assignments_of_header_ne_nil hsubject hall
          | arrayTable key => exact assignments_of_header_ne_nil hsubject hall

theorem Scanned.layout {file : Text} (h : Scanned file l) (hfits : Fits l) :
    Layout (topItems l) (tableItems l) where
  pairs x hx := isPair_of_mem_topItems hx
  assigned := h.assigned
  list := hfits.list
  late a ha := by
    rw [assignments_tableItems (reads_of_items h.lines).2] at ha
    cases ha
  untaken := h.untaken

theorem filter_untaken (h : ∀ x ∈ nested, taken x = false) : nested.filter (!taken ·) = nested :=
  List.filter_eq_self.mpr fun x hx => by simp [h x hx]

/-- A pair that is not taken is one of other names. -/
theorem Layout.other {x : Item} (h : Layout (x :: top) nested) (hx : taken x = false)
    {written : Bool} {sts sts' : List Item}
    (hrest : Reassigned isUrlKey (newPair urls) written (statementsOf sts) (statementsOf sts')) :
    Reassigned isUrlKey (newPair urls) written (statementsOf (x :: sts))
      (statementsOf (x :: sts')) := by
  have hpair := h.pairs x List.mem_cons_self
  cases hst : x.1 with
  | none =>
      rw [statementsOf_cons_none hst, statementsOf_cons_none hst]
      exact hrest
  | some st =>
      rw [statementsOf_cons_some hst, statementsOf_cons_some hst]
      cases st with
      | keyValue key v =>
          refine .other (fun hkey => ?_) hrest
          have hlist := h.list x List.mem_cons_self hx
          rw [hst, hkey] at hlist
          simp [assigns, newPair] at hlist
      | table key => rw [hst] at hpair; cases hpair
      | arrayTable key => rw [hst] at hpair; cases hpair

/-- After the new assignment the others are dropped. -/
theorem reassigned_filter (h : Layout top nested) : Reassigned isUrlKey (newPair urls) true
    (statementsOf (top ++ nested)) (statementsOf ((top ++ nested).filter (!taken ·))) := by
  induction top with
  | nil =>
      rw [List.nil_append, filter_untaken h.untaken]
      exact .rest h.late
  | cons x top ih =>
      have hrest := ih h.tail
      rw [List.cons_append, List.filter_cons]
      cases hx : taken x with
      | true =>
          obtain ⟨k, v, hst, hk⟩ := exists_of_assigns (h.assigned x List.mem_cons_self hx)
          rw [statementsOf_cons_some hst]
          exact .again hk hrest
      | false => exact h.other hx hrest

theorem appended_of_cons {x : Item} (hx : taken x = false)
    (h : (∃ y ∈ x :: top, taken y = true) ∨ nested = []) :
    (∃ y ∈ top, taken y = true) ∨ nested = [] := by
  simpa [hx] using h

/-- **The assignments** of the URLs are replaced by one. -/
theorem reassigned_rewrite (h : Layout top nested)
    (happended : (∃ x ∈ top, taken x = true) ∨ nested = []) :
    Reassigned isUrlKey (newPair urls) false (statementsOf (top ++ nested))
      (statementsOf (itemsBefore (top ++ nested) ++ newItem urls :: itemsAfter (top ++ nested))) := by
  induction top with
  | nil =>
      have hnil : nested = [] := by simpa using happended
      subst hnil
      exact .last
  | cons x top ih =>
      rw [List.cons_append]
      cases hx : taken x with
      | true =>
          obtain ⟨k, v, hst, hk⟩ := exists_of_assigns (h.assigned x List.mem_cons_self hx)
          have hbefore : itemsBefore (x :: (top ++ nested)) = [] := by simp [itemsBefore, hx]
          have hafter : itemsAfter (x :: (top ++ nested)) = (top ++ nested).filter (!taken ·) := by
            simp [itemsAfter, hx]
          rw [hbefore, hafter, statementsOf_cons_some hst]
          exact .first hk (reassigned_filter h.tail)
      | false =>
          have hbefore : itemsBefore (x :: (top ++ nested)) = x :: itemsBefore (top ++ nested) := by
            simp [itemsBefore, hx]
          have hafter : itemsAfter (x :: (top ++ nested)) = itemsAfter (top ++ nested) := by
            simp [itemsAfter, hx]
          rw [hbefore, hafter, List.cons_append]
          exact h.other hx (ih h.tail (appended_of_cons hx happended))

/-! ### an array over several lines -/

/-- A line inside of an array is not taken for one of the URLs. -/
theorem not_isUrlsLine_of_inArray {r line s : List Char} (h : InArray r (line ++ '\n' :: s))
    (hline : '\n' ∉ line) : isUrlsLine line = false := by
  have hstrip : ∀ {line : Line}, '\n' ∉ line → ∀ z, lstrip line = 'b' :: z →
      ∀ c s', (line ++ '\n' :: s).dropWhile isWs = c :: s' →
        c = 'b' ∨ isSpace c = true ∧ c ≠ '\n' := by
    intro line
    induction line with
    | nil =>
        intro _ z hz
        cases hz
    | cons d line ih =>
        intro hmem z hz c s' hdrop
        obtain ⟨hd, hmem⟩ := List.ne_and_not_mem_of_not_mem_cons hmem
        rw [List.cons_append, List.dropWhile_cons] at hdrop
        rw [lstrip, List.dropWhile_cons] at hz
        split at hdrop
        · next hws =>
            have hspace : isSpace d = true := by
              rcases (by simpa [isWs] using hws : d = ' ' ∨ d = '\t') with rfl | rfl <;> decide
            rw [if_pos hspace] at hz
            exact ih hmem z hz c s' hdrop
        · obtain rfl := (List.cons.inj hdrop).1
          split at hz
          · next hspace => exact Or.inr ⟨hspace, hd.symm⟩
          · exact Or.inl (List.cons.inj hz).1
  obtain ⟨c, s', hdrop, hc⟩ := h.dropWhile_ws
  have hmark : c ≠ 'b' ∧ (isSpace c = false ∨ c = '\n') := by
    simpa using List.all_eq_true.mp
      (by decide : marks.all (fun c => c ≠ 'b' && (!isSpace c || c = '\n')) = true) c hc
  have hnot : ∀ z, lstrip line ≠ 'b' :: z := by
    intro z hz
    rcases hstrip hline z hz c s' hdrop with rfl | ⟨hspace, hne⟩
    · exact hmark.1 rfl
    · rcases hmark.2 with hno | heq
      · rw [hspace] at hno
        cases hno
      · exact hne heq
  have hprefix : ∀ w, ('b' :: w).isPrefixOf (lstrip line) = false := by
    intro w
    cases hl : lstrip line with
    | nil => rfl
    | cons d z =>
        have hd : 'b' ≠ d := by
          rintro rfl
          exact hnot z hl
        rw [List.isPrefixOf_cons_cons, beq_false_of_ne hd, Bool.false_and]
  have hlist : "backend_urls".toList = 'b' :: "ackend_urls".toList := by decide
  have hblank : "backend_url ".toList = 'b' :: "ackend_url ".toList := by decide
  have hequals : "backend_url=".toList = 'b' :: "ackend_url=".toList := by decide
  rw [isUrlsLine, hlist, hblank, hequals, hprefix, hprefix, hprefix]
  rfl

/-- After the first line of an assignment over several lines an array goes on. -/
theorem exists_of_multiline {x : Item} (h : Reads x) {k : List Key} {v : Value}
    (hst : x.1 = some (.keyValue k v))
    (hv : (∃ u, v = .string u) ∨ ∃ us : List Text, v = .array (us.map Value.string))
    (hclosed : tripled x.2 = false) (hmem : '\n' ∈ x.2) :
    ∃ first more, itemLines x = first :: more ∧ (∀ line ∈ more, isUrlsLine line = false) ∧
      ∀ rest, ∃ r, InArray r (joinLines more ++ rest) := by
  obtain ⟨first, more, hlines⟩ := List.exists_cons_of_ne_nil (List.splitOn_ne_nil '\n' x.2)
  have hnone : ∀ line ∈ first :: more, '\n' ∉ line := fun line hline hmem => by
    rw [← hlines] at hline
    simpa using not_of_mem_splitOnP hline '\n' hmem
  have htext : x.2 ++ ['\n'] = joinLines (first :: more) := by rw [← hlines, joinLines_splitOn]
  have hin : ∀ before after, first :: more = before ++ after → before ≠ [] → after ≠ [] →
      ∀ rest, ∃ r, InArray r (joinLines after ++ rest) := by
    intro before after hsplit hbefore hafter rest
    rw [hsplit, joinLines_append, joinLines_eq_intercalate hbefore,
      joinLines_eq_intercalate hafter, ← List.append_assoc] at htext
    have hx := List.append_cancel_right htext
    rw [List.append_assoc, List.singleton_append] at hx
    obtain ⟨r, hr⟩ := h.inArray hst hv hclosed hx rest
    refine ⟨r, ?_⟩
    rw [joinLines_eq_intercalate hafter, List.append_assoc]
    exact hr
  have hmore : more ≠ [] := by
    rintro rfl
    have hone : x.2 = first := List.append_cancel_right (htext.trans (by simp [joinLines]))
    exact hnone first List.mem_cons_self (hone ▸ hmem)
  refine ⟨first, more, hlines, fun line hline => ?_, hin [first] more rfl (by simp) hmore⟩
  obtain ⟨before, after, rfl⟩ := List.append_of_mem hline
  obtain ⟨r, hr⟩ := hin (first :: before) (line :: after) rfl (by simp) (by simp) []
  rw [joinLines_cons, List.append_nil] at hr
  exact not_isUrlsLine_of_inArray hr (hnone line (List.mem_cons_of_mem first hline))

end Document

/-! ## the configuration of the new file -/

section Load

variable {σ : Type} {others : Table → Option σ} {file : Text} {before config : AgentConfig σ}
  {urls : List Text} {l : List Item}

theorem mapM_stringItem_iff {items : List Value} :
    items.mapM stringItem = some urls ↔ items = urls.map Value.string := by
  induction items generalizing urls with
  | nil => cases urls <;> simp
  | cons v items ih =>
      rw [List.mapM_cons]
      cases v <;> cases urls <;> simp [stringItem, Option.bind_eq_some_iff, ih, and_comm]

theorem stringField_of_isNest {v : Option Value} (h : IsNest v) : stringField v = none := by
  rcases h with ⟨t, rfl⟩ | ⟨items, t, rfl⟩ <;> rfl

theorem listField_of_isNest {v : Option Value} (h : IsNest v) : listField v = none := by
  rcases h with ⟨t, rfl⟩ | ⟨items, t, rfl⟩
  · rfl
  · rw [listField]
    cases hm : (items ++ [Value.table t]).mapM stringItem with
    | none => rfl
    | some us =>
        have hmem : Value.table t ∈ us.map Value.string := by
          rw [← mapM_stringItem_iff.mp hm]
          simp
        simp at hmem

theorem loadConfig_eq_some_iff : loadConfig others file = some config ↔
    ∃ raw url us rest, loads file = some raw ∧ stringField (find raw urlKey) = some url ∧
      listField (find raw listKey) = some us ∧ others (dropKeys isUrlKey raw) = some rest ∧
      coalesceUrls ⟨url, us, rest⟩ = some config := by
  simp [loadConfig, Option.bind_eq_some_iff]

theorem coalesceUrls_of_ne_nil (h : config.backendUrls ≠ []) : coalesceUrls config = some config :=
  if_neg h

theorem others_coalesceUrls {config' : AgentConfig σ} (h : coalesceUrls config = some config') :
    config'.others = config.others := by
  unfold coalesceUrls at h
  split at h
  · split at h
    · split at h
      · cases h
      · rw [← Option.some.inj h]
    · cases h
  · rw [← Option.some.inj h]

/-- What a file that loads has for the URLs is no nest. -/
theorem not_isNest_of_fields {raw : Table} {url : Option Text} {us : List Text}
    (hurl : stringField (find raw urlKey) = some url)
    (hus : listField (find raw listKey) = some us) {k : Key} (hk : isUrlKey k = true) :
    ¬ IsNest (find raw k) := by
  intro hnest
  rcases (by simpa [isUrlKey] using hk : k = urlKey ∨ k = listKey) with rfl | rfl
  · rw [stringField_of_isNest hnest] at hurl
    cases hurl
  · rw [listField_of_isNest hnest] at hus
    cases hus

/-- **Loading the new file**: where no URL needs escapes, the new URLs and the other settings. -/
theorem exists_load_rewrite (hload : loadConfig others file = some config)
    (h : Scanned file l) (hfits : Fits l) (hurls : urls ≠ [])
    (hplain : ∀ url ∈ urls, PlainText url) :
    ∃ config', loadConfig others (rewriteBackendUrlsInToml (readText file) urls) = some config' ∧
      config'.backendUrls = urls ∧ config'.others = config.others := by
  obtain ⟨raw, url, us, rest, hraw, hurl, hus, hrest, hconfig⟩ := loadConfig_eq_some_iff.mp hload
  obtain ⟨sts, hsts, hdata⟩ := Option.bind_eq_some_iff.mp hraw
  obtain ⟨d, hrun, rfl⟩ := Option.map_eq_some_iff.mp hdata
  obtain rfl := Option.some.inj (hsts.symm.trans h.same)
  have hclear : Clear isUrlKey [] (statementsOf l) := by
    rcases clear_or_isNest (p := isUrlKey) hrun with hclear | ⟨k, hk, hnest⟩
    · exact hclear
    · exact absurd hnest (not_isNest_of_fields hurl hus hk)
  have hlist : isUrlKey listKey = true := by decide
  have hnew : Reassigned isUrlKey (newPair urls) false
      (statementsOf (topItems l ++ tableItems l)) _ :=
    reassigned_rewrite (h.layout hfits) h.appended
  rw [top_append_table] at hnew
  obtain ⟨d', hrun', hdrop, hfind, hold⟩ :=
    run_of_reassigned (by decide) hlist hclear hrun hnew
  have hloads : loads (rewriteBackendUrlsInToml (readText file) urls) = some d'.data := by
    rw [loads, statements_rewrite h.lines hfits.single hurls hplain, Option.bind_some, hrun',
      Option.map_some]
  obtain ⟨url', hurl'⟩ : ∃ url', stringField (find d'.data urlKey) = some url' := by
    have hne : urlKey ≠ listKey := by decide
    rcases hold urlKey (by decide) hne with hnone | hsame
    · exact ⟨none, by rw [hnone]; rfl⟩
    · exact ⟨url, by rw [hsame, hurl]⟩
  refine ⟨⟨url', urls, rest⟩, loadConfig_eq_some_iff.mpr ⟨d'.data, url', urls, rest, hloads, hurl',
    ?_, ?_, coalesceUrls_of_ne_nil hurls⟩, rfl, (others_coalesceUrls hconfig).symm⟩
  · show listField (find d'.data listKey) = some urls
    have hvalue : find d'.data listKey = some (.array (urls.map Value.string)) := hfind
    rw [hvalue]
    exact mapM_stringItem_iff.mpr rfl
  · rw [hdrop, hrest]

/-! ### what does not come back -/

/-- What a file that loads assigns to the URLs before the first table. -/
theorem exists_value (hload : loadConfig others file = some config) (h : Scanned file l) {x : Item}
    (hx : x ∈ topItems l) {k : Key} {v : Value} (hst : x.1 = some (.keyValue [k] v))
    (hk : isUrlKey k = true) :
    (∃ u, v = .string u) ∨ ∃ us : List Text, v = .array (us.map Value.string) := by
  obtain ⟨raw, url, us, -, hraw, hurl, hus, -, -⟩ := loadConfig_eq_some_iff.mp hload
  obtain ⟨sts, hsts, hdata⟩ := Option.bind_eq_some_iff.mp hraw
  obtain ⟨d, hrun, rfl⟩ := Option.map_eq_some_iff.mp hdata
  obtain rfl := Option.some.inj (hsts.symm.trans h.same)
  obtain ⟨before, after, htop⟩ := List.append_of_mem hx
  have hpairs : ∀ st ∈ statementsOf before, headerAfter [] st = [] := fun st hst' =>
    headerAfter_of_isPair (fun y hy => isPair_of_mem_topItems (l := l) (by
      rw [htop]
      exact List.mem_append_left _ hy)) hst'
  rw [← top_append_table l, htop, List.append_assoc, List.cons_append, statementsOf_append,
    statementsOf_cons_some hst] at hrun
  have hfind : find d.data k = some v :=
    (find_of_run_assigned hk hpairs hrun).resolve_right (not_isNest_of_fields hurl hus hk)
  rcases (by simpa [isUrlKey] using hk : k = urlKey ∨ k = listKey) with rfl | rfl
  · rw [hfind] at hurl
    cases v with
    | string u => exact Or.inl ⟨u, rfl⟩
    | _ => cases hurl
  · rw [hfind] at hus
    cases v with
    | array vs => exact Or.inr ⟨us, congrArg Value.array (mapM_stringItem_iff.mp hus)⟩
    | _ => cases hus

theorem mem_topItems_of_taken (h : Scanned file l) {x : Item} (hx : x ∈ l)
    (htaken : taken x = true) : x ∈ topItems l := by
  rw [← top_append_table l] at hx
  refine (List.mem_append.mp hx).resolve_right fun hx => ?_
  rw [h.untaken x hx] at htaken
  cases htaken

/-- An array over several lines, of which the rewriter takes the first. -/
theorem exists_of_taken_multiline (hload : loadConfig others file = some config)
    (h : Scanned file l) {x : Item} (hx : x ∈ l) (htaken : taken x = true) (hmem : '\n' ∈ x.2) :
    ∃ first more, itemLines x = first :: more ∧ (∀ line ∈ more, isUrlsLine line = false) ∧
      ∀ rest, ∃ r, InArray r (joinLines more ++ rest) := by
  have htop := mem_topItems_of_taken h hx htaken
  obtain ⟨k, v, hst, hk⟩ := exists_of_assigns (h.assigned x htop htaken)
  exact exists_of_multiline ((reads_of_items h.lines).2 x hx) hst (exists_value hload h htop hst hk)
    (h.closed x htop htaken hmem) hmem

theorem Scanned.firstTaken (h : Scanned file l) (hload : loadConfig others file = some config) :
    FirstTaken l := by
  intro x hx htaken
  by_cases hmem : '\n' ∈ x.2
  · obtain ⟨first, more, hlines, hmore, -⟩ := exists_of_taken_multiline hload h hx htaken hmem
    refine ⟨first, more, hlines, ?_⟩
    rw [taken, hlines, List.any_cons, List.any_eq_false.mpr fun line hline => by
      simp [hmore line hline], Bool.or_false] at htaken
    exact htaken
  · obtain ⟨hlines, hurls⟩ := itemLines_of_taken hmem htaken
    exact ⟨x.2, [], hlines, hurls⟩

/-- What is before the new line opens no table. -/
theorem mem_top_of_mem_itemsBefore {top nested : List Item}
    (happended : (∃ x ∈ top, taken x = true) ∨ nested = [])
    {x : Item} (hx : x ∈ itemsBefore (top ++ nested)) : x ∈ top := by
  induction top with
  | nil =>
      have hnil : nested = [] := by simpa using happended
      rw [hnil] at hx
      cases hx
  | cons y top ih =>
      cases hy : taken y with
      | true => simp [itemsBefore, hy] at hx
      | false =>
          have hcons : itemsBefore (y :: (top ++ nested)) = y :: itemsBefore (top ++ nested) := by
            simp [itemsBefore, hy]
          rw [List.cons_append, hcons] at hx
          rcases List.mem_cons.mp hx with rfl | hx
          · exact List.mem_cons_self
          · exact List.mem_cons_of_mem y (ih (appended_of_cons hy happended) hx)

theorem headerAfter_itemsBefore (h : Scanned file l) {st : Statement}
    (hst : st ∈ statementsOf (itemsBefore l)) : headerAfter [] st = [] := by
  refine headerAfter_of_isPair (fun x hx => isPair_of_mem_topItems (l := l) ?_) hst
  rw [← top_append_table l] at hx
  exact mem_top_of_mem_itemsBefore h.appended hx

/-- The statements of a new file that is read: that of the new line is among them. -/
theorem exists_of_statements_rewrite {text : Text} {sts : List Statement}
    (h : items (joinLines (splitlines text)).length (joinLines (splitlines text)) = some l)
    (hfirst : FirstTaken l) (hurls : urls ≠ [])
    (hsts : statements (crlf (rewriteBackendUrlsInToml text urls)) = some sts) :
    ∃ v rest, sts = statementsOf (itemsBefore l) ++ .keyValue [listKey] v :: rest ∧
      v ≠ .array [] ∧
      (v = .array (urls.map Value.string) → ∀ url ∈ urls, PlainText url) := by
  obtain ⟨-, hreads⟩ := reads_of_items h
  obtain ⟨l', hl', rfl⟩ := Option.map_eq_some_iff.mp hsts
  have htext := crlf_rewrite h hfirst urls
  have hlength := congrArg List.length htext
  rw [List.length_append, List.length_singleton] at hlength
  have hbefore : ∀ x ∈ itemsBefore l, Reads x := fun x hx =>
    hreads x ((List.takeWhile_sublist _).subset hx)
  obtain ⟨m, -, hitems⟩ := items_append hbefore hlength.symm.le
  rw [htext, hitems] at hl'
  obtain ⟨rest, hrest, rfl⟩ := Option.map_eq_some_iff.mp hl'
  obtain ⟨n, st, s, src, rest', -, hline, -, rfl⟩ := exists_of_items (by simp) hrest
  obtain ⟨url, us, rfl⟩ := List.exists_cons_of_ne_nil hurls
  have hcount : ∀ (s : Text) c, c = ',' ∨ c = ']' → s.count c ≤ (crlf s).count c := fun s c hc =>
    (count_crlf (by rcases hc with rfl | rfl <;> decide) s).symm.le
  obtain ⟨v, rfl, hnil, hplain⟩ := exists_of_run_line length_crlf_le hcount bare_listKey hline
  refine ⟨v, statementsOf rest', ?_, hnil, fun hv x hx => (hplain hv x hx).2⟩
  exact statementsOf_append _ _

/-- **URLs that need escapes** do not come back. -/
theorem plainText_of_load_rewrite (hbefore : loadConfig others file = some before)
    (h : Scanned file l) (hurls : urls ≠ [])
    (hload : loadConfig others (rewriteBackendUrlsInToml (readText file) urls) = some config)
    (hconfig : config.backendUrls = urls) : ∀ url ∈ urls, PlainText url := by
  obtain ⟨raw, url, us, rest, hraw, hurl, hus, -, hcoalesce⟩ := loadConfig_eq_some_iff.mp hload
  obtain ⟨sts, hsts, hdata⟩ := Option.bind_eq_some_iff.mp hraw
  obtain ⟨d, hrun, rfl⟩ := Option.map_eq_some_iff.mp hdata
  obtain ⟨v, sts', rfl, hnil, hplain⟩ :=
    exists_of_statements_rewrite h.lines (h.firstTaken hbefore) hurls hsts
  have hlist : isUrlKey listKey = true := by decide
  have hfind : find d.data listKey = some v :=
    (find_of_run_assigned hlist (fun st hst => headerAfter_itemsBefore h hst)
      hrun).resolve_right (not_isNest_of_fields hurl hus hlist)
  rw [hfind] at hus
  cases v with
  | array vs =>
      obtain rfl := mapM_stringItem_iff.mp hus
      have hne : us ≠ [] := by
        rintro rfl
        exact hnil rfl
      rw [coalesceUrls_of_ne_nil hne] at hcoalesce
      obtain rfl := Option.some.inj hcoalesce
      obtain rfl : us = urls := hconfig
      exact hplain rfl
  | _ => cases hus

/-- The first item over several lines of those that are taken. -/
theorem exists_of_not_single {l' : List Item} (h : ¬ Single l') : ∃ before x after,
    l' = before ++ x :: after ∧ Single before ∧ taken x = true ∧ '\n' ∈ x.2 := by
  induction l' with
  | nil => exact absurd (List.forall_mem_nil _) h
  | cons x l' ih =>
      by_cases hx : taken x = true ∧ '\n' ∈ x.2
      · exact ⟨[], x, l', rfl, List.forall_mem_nil _, hx.1, hx.2⟩
      · have hrest : ¬ Single l' := fun hall => h fun y hy htaken hmem => by
          rcases List.mem_cons.mp hy with rfl | hy
          · exact hx ⟨htaken, hmem⟩
          · exact hall y hy htaken hmem
        obtain ⟨before, y, after, rfl, hbefore, hy⟩ := ih hrest
        refine ⟨x :: before, y, after, rfl, fun z hz htaken hmem => ?_, hy⟩
        rcases List.mem_cons.mp hz with rfl | hz
        · exact hx ⟨htaken, hmem⟩
        · exact hbefore z hz htaken hmem

/-- The lines of the first such item but for its first are left. -/
theorem exists_linesAfter (hload : loadConfig others file = some config) (h : Scanned file l)
    (hsingle : ¬ Single l) : ∃ mid more rest, mid ⊆ l ∧
      linesAfter l = mid.flatMap itemLines ++ (more ++ rest) ∧
      ∀ after, ∃ r, InArray r (joinLines more ++ after) := by
  have hdrop : ¬ Single (l.dropWhile (!taken ·)) := fun hall => hsingle fun x hx htaken => by
    rw [← List.takeWhile_append_dropWhile (p := (!taken ·)) (l := l)] at hx
    rcases List.mem_append.mp hx with hx | hx
    · have hnot := List.mem_takeWhile_imp hx
      rw [htaken] at hnot
      cases hnot
    · exact hall x hx htaken
  obtain ⟨mid, x, after, hmid, hmidSingle, htaken, hmem⟩ := exists_of_not_single hdrop
  have hsub : ∀ y ∈ mid ++ x :: after, y ∈ l := fun y hy =>
    (List.dropWhile_sublist _).subset (hmid ▸ hy)
  obtain ⟨first, more, hlines, hmore, hin⟩ :=
    exists_of_taken_multiline hload h (hsub x (by simp)) htaken hmem
  have hkept : (itemLines x).filter (!isUrlsLine ·) = more := by
    obtain ⟨first', more', hlines', hurlsLine⟩ := h.firstTaken hload x (hsub x (by simp)) htaken
    obtain ⟨rfl, rfl⟩ := List.cons.inj (hlines'.symm.trans hlines)
    rw [hlines, List.filter_cons_of_neg (by simp [hurlsLine]),
      List.filter_eq_self.mpr fun line hline => by simp [hmore line hline]]
  refine ⟨mid.filter (!taken ·), more, (after.flatMap itemLines).filter (!isUrlsLine ·),
    fun y hy => ?_, ?_, hin⟩
  · exact hsub y (List.mem_append_left _ (List.mem_of_mem_filter hy))
  · rw [linesAfter, hmid, List.flatMap_append, List.flatMap_cons, List.filter_append,
      List.filter_append, filter_itemLines hmidSingle, hkept]

/-- **An array over several lines**: its first line is replaced, and no document begins at the
others. -/
theorem single_of_load_rewrite (hbefore : loadConfig others file = some before)
    (h : Scanned file l) (hurls : urls ≠ []) (hplain : ∀ url ∈ urls, PlainText url)
    (hload : loadConfig others (rewriteBackendUrlsInToml (readText file) urls) = some config) :
    Single l := by
  by_contra hsingle
  obtain ⟨-, hreads⟩ := reads_of_items h.lines
  obtain ⟨mid, more, rest, hmid, hafter, hin⟩ := exists_linesAfter hbefore h hsingle
  have hnew : ∀ y ∈ itemsBefore l ++ newItem urls :: mid, Reads y :=
    List.forall_mem_append.mpr ⟨fun y hy => hreads y ((List.takeWhile_sublist _).subset hy),
      List.forall_mem_cons.mpr ⟨reads_newItem hurls hplain, fun y hy => hreads y (hmid hy)⟩⟩
  obtain ⟨end', htext⟩ : ∃ end', crlf (rewriteBackendUrlsInToml (readText file) urls) ++ ['\n'] =
      joinLines ((itemsBefore l ++ newItem urls :: mid).map Prod.snd) ++
        (joinLines more ++ end') := by
    rw [crlf_rewrite h.lines (h.firstTaken hbefore), hafter, map_crlf_of_plainText hplain]
    refine ⟨joinLines (rest ++ (blank (readText file)).map Prod.snd), ?_⟩
    simp only [joinLines_append, joinLines_itemLines, List.map_append, List.map_cons,
      joinLines_cons, List.append_assoc, List.cons_append]
    rfl
  obtain ⟨raw, -, -, -, hraw, -⟩ := loadConfig_eq_some_iff.mp hload
  obtain ⟨sts, hsts, -⟩ := Option.bind_eq_some_iff.mp hraw
  obtain ⟨l', hl', -⟩ := Option.map_eq_some_iff.mp hsts
  have hlength := congrArg List.length htext
  rw [List.length_append, List.length_singleton] at hlength
  obtain ⟨m, -, hitems⟩ := items_append hnew hlength.symm.le
  obtain ⟨r, hr⟩ := hin end'
  have hnone : items m (joinLines more ++ end') = none :=
    hr.items_eq_none [] (List.forall_mem_nil _) m
  rw [htext, hitems, hnone] at hl'
  cases hl'

/-- An item before the first table that is not taken stays before the new line, or after it with no
table between them. -/
theorem mem_itemsBefore_or_itemsAfter {top : List Item} {x : Item} (hx : x ∈ top)
    (htaken : taken x = false) (nested : List Item) : x ∈ itemsBefore (top ++ nested) ∨
      ∃ before after, itemsAfter (top ++ nested) = before ++ x :: after ∧ before ⊆ top := by
  induction top with
  | nil => cases hx
  | cons y top ih =>
      rw [List.cons_append]
      cases hy : taken y with
      | true =>
          have hmem : x ∈ top := by
            refine (List.mem_cons.mp hx).resolve_left ?_
            rintro rfl
            rw [htaken] at hy
            cases hy
          have hafter : itemsAfter (y :: (top ++ nested)) =
              top.filter (!taken ·) ++ nested.filter (!taken ·) := by simp [itemsAfter, hy]
          obtain ⟨before, after, hsplit⟩ := List.append_of_mem
            (List.mem_filter.mpr ⟨hmem, by simp [htaken]⟩ : x ∈ top.filter (!taken ·))
          refine Or.inr ⟨before, after ++ nested.filter (!taken ·), ?_, fun z hz => ?_⟩
          · rw [hafter, hsplit, List.append_assoc, List.cons_append]
          · refine List.mem_cons_of_mem y (List.mem_of_mem_filter (p := (!taken ·)) ?_)
            rw [hsplit]
            exact List.mem_append_left _ hz
      | false =>
          have hbefore : itemsBefore (y :: (top ++ nested)) = y :: itemsBefore (top ++ nested) := by
            simp [itemsBefore, hy]
          have hafter : itemsAfter (y :: (top ++ nested)) = itemsAfter (top ++ nested) := by
            simp [itemsAfter, hy]
          rw [hbefore, hafter]
          rcases List.mem_cons.mp hx with rfl | hx
          · exact Or.inl List.mem_cons_self
          · rcases ih hx with hmem | ⟨before, after, hsplit, hsub⟩
            · exact Or.inl (List.mem_cons_of_mem y hmem)
            · exact Or.inr ⟨before, after, hsplit, fun z hz => List.mem_cons_of_mem y (hsub hz)⟩

/-- **Another spelling of the list** is a second assignment. -/
theorem list_of_load_rewrite (h : Scanned file l) (hsingle : Single l) (hurls : urls ≠ [])
    (hplain : ∀ url ∈ urls, PlainText url)
    (hload : loadConfig others (rewriteBackendUrlsInToml (readText file) urls) = some config)
    {x : Item} (hx : x ∈ topItems l) (htaken : taken x = false) :
    assigns (· = listKey) x.1 = false := by
  by_contra hassigns
  obtain ⟨k, v, hst, hk⟩ := exists_of_assigns (Bool.not_eq_false _ ▸ hassigns)
  obtain rfl : k = listKey := by simpa using hk
  obtain ⟨raw, -, -, -, hraw, -⟩ := loadConfig_eq_some_iff.mp hload
  obtain ⟨sts, hsts, hdata⟩ := Option.bind_eq_some_iff.mp hraw
  obtain ⟨d, hrun, -⟩ := Option.map_eq_some_iff.mp hdata
  obtain rfl := Option.some.inj (hsts.symm.trans (statements_rewrite h.lines hsingle hurls hplain))
  have hlist : isUrlKey listKey = true := by decide
  rw [statementsOf_append, statementsOf_cons_some (x := newItem urls) rfl] at hrun
  have hplace := mem_itemsBefore_or_itemsAfter hx htaken (tableItems l)
  rw [top_append_table] at hplace
  rcases hplace with hmem | ⟨before, after, hafter, hsub⟩
  · obtain ⟨before, after, hsplit⟩ := List.append_of_mem hmem
    have hheader : ∀ st ∈ statementsOf before ++ .keyValue [listKey] v :: statementsOf after,
        headerAfter [] st = [] := by
      intro st hst'
      refine headerAfter_itemsBefore h ?_
      rwa [hsplit, statementsOf_append, statementsOf_cons_some hst]
    rw [hsplit, statementsOf_append, statementsOf_cons_some hst, List.append_assoc,
      List.cons_append] at hrun
    obtain ⟨hl, hm⟩ := List.forall_mem_append.mp hheader
    exact not_run_assigned_twice hlist hl (List.forall_mem_cons.mp hm).2 hrun
  · have hpairs : ∀ st ∈ statementsOf before, headerAfter [] st = [] := fun st hst' =>
      headerAfter_of_isPair (fun y hy => isPair_of_mem_topItems (hsub hy)) hst'
    rw [hafter, statementsOf_append, statementsOf_cons_some hst] at hrun
    exact not_run_assigned_twice hlist (fun st hst' => headerAfter_itemsBefore h hst') hpairs hrun

/-! ## requests -/

section Request

variable {agent : Agent σ} {failure : Option String}

theorem updateUrls_of_written (hfile : agent.file = some file) (hurls : urls ≠ []) :
    updateUrls agent urls none = (⟨{ agent.config with backendUrls := urls },
      some (rewriteBackendUrlsInToml (readText file) urls)⟩, ⟨true, urls, none⟩) := by
  rw [updateUrls, if_neg hurls]
  simp [hfile, persistBackendUrls]

theorem updateUrls_of_failure (hfile : agent.file = some file) (hurls : urls ≠ []) (e : String) :
    updateUrls agent urls (some e) = (⟨{ agent.config with backendUrls := urls }, some file⟩,
      ⟨false, [], some ("persist failed: " ++ e)⟩) := by
  rw [updateUrls, if_neg hurls]
  simp [hfile, persistBackendUrls]

/-- A write that fails: the list in memory is the new one already. -/
theorem allOrNothing_failure_iff (hfile : agent.file = some file) (hurls : urls ≠ []) (e : String) :
    AllOrNothing others agent file config urls (some e) ↔ agent.config.backendUrls = urls := by
  have hstep := updateUrls_of_failure hfile hurls e
  constructor
  · intro h
    have hsame := (h.untouched (by rw [hstep])).2
    rw [hstep] at hsame
    exact hsame.symm
  · intro h
    refine ⟨fun hok => ?_, fun _ => ?_⟩
    · rw [hstep] at hok
      cases hok
    · rw [hstep]
      exact ⟨rfl, h.symm⟩

/-- A write that succeeds: the file fits the rewriter, and no URL needs an escape. -/
theorem allOrNothing_written_iff (hfile : agent.file = some file) (hurls : urls ≠ [])
    (hload : loadConfig others file = some config) (h : Scanned file l) :
    AllOrNothing others agent file config urls none ↔ Fits l ∧ ∀ url ∈ urls, PlainText url := by
  have hstep := updateUrls_of_written hfile hurls
  constructor
  · intro h'
    obtain ⟨newFile, config', hnew, hload', hconfig', -⟩ := h'.applied (by rw [hstep])
    rw [hstep] at hnew
    obtain rfl := Option.some.inj hnew
    have hplain := plainText_of_load_rewrite hload h hurls hload' hconfig'
    have hsingle := single_of_load_rewrite hload h hurls hplain hload'
    exact ⟨⟨hsingle, fun x hx => list_of_load_rewrite h hsingle hurls hplain hload' hx⟩, hplain⟩
  · rintro ⟨hfits, hplain⟩
    obtain ⟨config', hload', hconfig', hothers⟩ := exists_load_rewrite hload h hfits hurls hplain
    refine ⟨fun _ => ⟨_, config', ?_, hload', hconfig', hothers⟩, fun hok => ?_⟩
    · rw [hstep]
    · rw [hstep] at hok
      cases hok

/-- **All or nothing**: where the write fails, if the list in memory is the new one already; where
it succeeds, if the file fits the rewriter and no URL needs an escape. -/
theorem allOrNothing_iff (hfile : agent.file = some file) (hurls : urls ≠ [])
    (hload : loadConfig others file = some config) (hscan : failure = none → Scanned file l) :
    AllOrNothing others agent file config urls failure ↔
      (failure = none → Fits l ∧ ∀ url ∈ urls, PlainText url) ∧
        (failure ≠ none → agent.config.backendUrls = urls) := by
  cases failure with
  | none =>
      rw [allOrNothing_written_iff hfile hurls hload (hscan rfl)]
      simp
  | some e =>
      rw [allOrNothing_failure_iff hfile hurls e]
      simp

end Request

end Load

/-! ## an agent -/

/-- The settings of a file with a log level at most. -/
def logLevel (t : Table) : Option Text :=
  if t.all (·.1 = "log_level".toList) then
    match find t "log_level".toList with
    | none => some "INFO".toList
    | some (.string s) => some s
    | some _ => none
  else none

def legacyFile : Text := "# agent\nbackend_url = \"ws://a\"\nlog_level = \"DEBUG\"\n".toList

def legacyItems : List Item := (items legacyFile.length legacyFile).getD []

def legacyConfig : AgentConfig Text := ⟨some "ws://a".toList, ["ws://a".toList], "DEBUG".toList⟩

theorem scanned_legacy : Scanned legacyFile legacyItems := by
  obtain ⟨l, hl⟩ := Option.isSome_iff_exists.mp
    (by decide +kernel : (items legacyFile.length legacyFile).isSome = true)
  have hitems : items legacyFile.length legacyFile = some legacyItems := by
    rw [legacyItems, hl, Option.getD_some]
  have hcrlf : crlf legacyFile = legacyFile := by decide +kernel
  have hlines : joinLines (splitlines (readText legacyFile)) = legacyFile := by decide +kernel
  exact ⟨by rw [hcrlf]; exact statements_of_items hitems, by rw [hlines, hitems],
    by decide +kernel, by decide +kernel, by decide +kernel, by decide +kernel⟩

theorem fits_legacy : Fits legacyItems := ⟨by unfold Single; decide +kernel, by decide +kernel⟩

theorem loadConfig_legacy : loadConfig logLevel legacyFile = some legacyConfig := by
  decide +kernel

/-- The legacy line of a file is replaced. -/
theorem allOrNothing_legacy : AllOrNothing logLevel ⟨legacyConfig, some legacyFile⟩ legacyFile
    legacyConfig ["wss://lab.test/ws".toList, "ws://a".toList] none :=
  (allOrNothing_iff rfl (List.cons_ne_nil _ _) loadConfig_legacy
    (fun _ => scanned_legacy)).mpr
    ⟨fun _ => ⟨fits_legacy, by decide +kernel⟩, fun h => absurd rfl h⟩

def multilineFile : Text := "backend_urls = [\n  \"ws://a\",\n]\n".toList

def oneUrl : AgentConfig Text := ⟨none, ["ws://a".toList], "INFO".toList⟩

/-- A list over several lines, a URL with a quote, and a write that fails. -/
theorem not_allOrNothing :
    (loadConfig logLevel multilineFile = some oneUrl ∧ ¬ AllOrNothing logLevel
      ⟨oneUrl, some multilineFile⟩ multilineFile oneUrl ["ws://b".toList] none) ∧
    (loadConfig logLevel legacyFile = some legacyConfig ∧ ¬ AllOrNothing logLevel
      ⟨legacyConfig, some legacyFile⟩ legacyFile legacyConfig ["ws://b?q=\"".toList] none) ∧
    ¬ AllOrNothing logLevel ⟨legacyConfig, some legacyFile⟩ legacyFile legacyConfig
      ["ws://b".toList] (some "No space left on device") := by
  refine ⟨⟨by decide +kernel, fun h => ?_⟩, ⟨by decide +kernel, fun h => ?_⟩, fun h => ?_⟩
  · obtain ⟨newFile, after, hfile, hload, -⟩ := h.applied rfl
    obtain rfl := Option.some.inj hfile
    have hnone : loadConfig logLevel
        (rewriteBackendUrlsInToml (readText multilineFile) ["ws://b".toList]) = none := by
      decide +kernel
    cases hnone.symm.trans hload
  · obtain ⟨newFile, after, hfile, hload, -⟩ := h.applied rfl
    obtain rfl := Option.some.inj hfile
    have hnone : loadConfig logLevel
        (rewriteBackendUrlsInToml (readText legacyFile) ["ws://b?q=\"".toList]) = none := by
      decide +kernel
    cases hnone.symm.trans hload
  · have hsame := (h.untouched rfl).2
    revert hsame
    decide

end BackendUrls

end CoreLab
