import CoreLab.Lib.TomlArrays

/-!
# CoreLab.BackendUrls

The agent's list of backend URLs: a request replaces it in memory, and then rewrites the
line of the configuration file that has it.  The rewriter goes by the lines of the file and
by how they begin, writes the URLs between quotes as they are, and where no line begins
with the name it appends one; the file is TOML.

* `AllOrNothing` — what is promised, and `Scanned`, `Fits`: what the rewriter expects;
* `outLines_itemLines`, `crlf_rewrite` — the text that is written and read again.

What a file holds is its text, decoded; what pydantic makes of the other settings is a
parameter.
-/

namespace CoreLab

open Lines Toml

namespace BackendUrls

abbrev Text := List Char

/-! ## the rewriter -/

/-- The line that is written. -/
def urlsLine (newUrls : List Text) : Line :=
  "backend_urls = [".toList ++ quotedItems newUrls ++ [']']

/-- A line that begins as that of the list or of the single URL does. -/
def isUrlsLine (line : Line) : Bool :=
  "backend_urls".toList.isPrefixOf (lstrip line) ||
    ("backend_url ".toList.isPrefixOf (lstrip line) ||
      "backend_url=".toList.isPrefixOf (lstrip line))

/-- The body of the loop of `_rewrite_backend_urls_in_toml`, over the lines out and whether the
list has been written. -/
def rewriteLine (newUrls : List Text) (acc : List Line × Bool) (line : Line) : List Line × Bool :=
  if "backend_urls".toList.isPrefixOf (lstrip line) then
    if acc.2 then acc else (acc.1 ++ [urlsLine newUrls], true)
  else if "backend_url ".toList.isPrefixOf (lstrip line) ||
      "backend_url=".toList.isPrefixOf (lstrip line) then
    if acc.2 then acc else (acc.1 ++ [urlsLine newUrls], true)
  else (acc.1 ++ [line], acc.2)

/-- The lines of the new file. -/
def outLines (newUrls : List Text) (lines : List Line) : List Line :=
  let out := lines.foldl (rewriteLine newUrls) ([], false)
  if out.2 then out.1 else out.1 ++ [urlsLine newUrls]

/-- `_rewrite_backend_urls_in_toml`. -/
def rewriteBackendUrlsInToml (text : Text) (newUrls : List Text) : Text :=
  ['\n'].intercalate (outLines newUrls (splitlines text)) ++
    if text.getLast? = some '\n' then [] else ['\n']

/-! ## the configuration -/

/-- The URLs of an `AgentConfig`, and its other settings. -/
structure AgentConfig (σ : Type) where
  backendUrl : Option Text
  backendUrls : List Text
  others : σ
deriving DecidableEq

def urlKey : Key := "backend_url".toList

def listKey : Key := "backend_urls".toList

def isUrlKey (k : Key) : Bool := k = urlKey || k = listKey

/-- `str | None`. -/
def stringField : Option Value → Option (Option Text)
  | none => some none
  | some (.string s) => some (some s)
  | some _ => none

/-- `str`. -/
def stringItem : Value → Option Text
  | .string s => some s
  | _ => none

/-- `list[str]`. -/
def listField : Option Value → Option (List Text)
  | none => some []
  | some (.array items) => items.mapM stringItem
  | some _ => none

/-- `_coalesce_urls`. -/
def coalesceUrls {σ : Type} (config : AgentConfig σ) : Option (AgentConfig σ) :=
  if config.backendUrls = [] then
    match config.backendUrl with
    | some url => if url = [] then none else some { config with backendUrls := [url] }
    | none => none
  else some config

/-- `load_config`. -/
def loadConfig {σ : Type} (others : Table → Option σ) (file : Text) : Option (AgentConfig σ) := do
  let raw ← loads file
  let backendUrl ← stringField (find raw urlKey)
  let backendUrls ← listField (find raw listKey)
  let rest ← others (dropKeys isUrlKey raw)
  coalesceUrls ⟨backendUrl, backendUrls, rest⟩

/-! ## the request -/

/-- The agent: its configuration, and the file it is from. -/
structure Agent (σ : Type) where
  config : AgentConfig σ
  file : Option Text

/-- `agent.config.update_urls.ack`. -/
structure UpdateUrlsAck where
  ok : Bool
  appliedUrls : List Text
  error : Option String
deriving DecidableEq

/-- `read_text`: every line end is a newline. -/
def readText (file : Text) : Text := (crlf file).map fun c => if c = '\r' then '\n' else c

/-- `_persist_backend_urls`, which a failure to read, to write the new file or to put it in
place leaves with the old file. -/
def persistBackendUrls (file : Text) (newUrls : List Text) (failure : Option String) :
    Except String Text :=
  match failure with
  | some e => .error e
  | none => .ok (rewriteBackendUrlsInToml (readText file) newUrls)

/-- The handler of `backend.config.update_urls`. -/
def updateUrls {σ : Type} (agent : Agent σ) (urls : List Text) (failure : Option String) :
    Agent σ × UpdateUrlsAck :=
  if urls = [] then (agent, ⟨false, [], some "empty url list"⟩)
  else
    let config := { agent.config with backendUrls := urls }
    match agent.file with
    | none => (⟨config, none⟩, ⟨true, urls, none⟩)
    | some file =>
        match persistBackendUrls file urls failure with
        | .ok newFile => (⟨config, some newFile⟩, ⟨true, urls, none⟩)
        | .error e => (⟨config, some file⟩, ⟨false, [], some ("persist failed: " ++ e)⟩)

/-! ## what is promised -/

/-- A request takes effect in full, or not at all. -/
structure AllOrNothing {σ : Type} (others : Table → Option σ) (agent : Agent σ) (file : Text)
    (before : AgentConfig σ) (urls : List Text) (failure : Option String) : Prop where
  applied : (updateUrls agent urls failure).2.ok = true → ∃ newFile after,
    (updateUrls agent urls failure).1.file = some newFile ∧
      loadConfig others newFile = some after ∧ after.backendUrls = urls ∧
      after.others = before.others
  untouched : (updateUrls agent urls failure).2.ok = false →
    (updateUrls agent urls failure).1.file = some file ∧
      (updateUrls agent urls failure).1.config.backendUrls = agent.config.backendUrls

/-- The lines of an item. -/
def itemLines (x : Item) : List Line := x.2.splitOn '\n'

/-- The rewriter takes a line of the item for that of the URLs. -/
def taken (x : Item) : Bool := (itemLines x).any isUrlsLine

/-- A statement opens no table. -/
def isPair : Option Statement → Bool
  | none | some (.keyValue _ _) => true
  | some (.table _) | some (.arrayTable _) => false

/-- A statement assigns to one of the names. -/
def assigns (p : Key → Bool) : Option Statement → Bool
  | some (.keyValue [k] _) => p k
  | _ => false

/-- The statements of items. -/
def statementsOf (l : List Item) : List Statement := l.filterMap Prod.fst

/-- The items before the first table. -/
def topItems (l : List Item) : List Item := l.takeWhile (isPair ·.1)

/-- The items from the first table on. -/
def tableItems (l : List Item) : List Item := l.dropWhile (isPair ·.1)

/-- The lines of the file are those of its document; what the rewriter takes of them are
assignments of the URLs before the first table, none of a string over several lines; and where it
takes nothing there is no table. -/
structure Scanned (file : Text) (l : List Item) : Prop where
  same : statements (crlf file) = some (statementsOf l)
  lines : items (joinLines (splitlines (readText file))).length
    (joinLines (splitlines (readText file))) = some l
  assigned : ∀ x ∈ topItems l, taken x = true → assigns isUrlKey x.1 = true
  closed : ∀ x ∈ topItems l, taken x = true → '\n' ∈ x.2 → tripled x.2 = false
  untaken : ∀ x ∈ tableItems l, taken x = false
  appended : (∃ x ∈ topItems l, taken x = true) ∨ tableItems l = []

/-- An item that is taken is a line. -/
def Single (l : List Item) : Prop := ∀ x ∈ l, taken x = true → '\n' ∉ x.2

/-- What the rewriter takes it takes whole, and it leaves no assignment of the list. -/
structure Fits (l : List Item) : Prop where
  single : Single l
  list : ∀ x ∈ topItems l, taken x = false → assigns (· = listKey) x.1 = false

/-! ## the lines out -/

section Lines

variable {urls : List Text}

theorem rewriteLine_eq (acc : List Line × Bool) (line : Line) : rewriteLine urls acc line =
    if isUrlsLine line then (if acc.2 then acc else (acc.1 ++ [urlsLine urls], true))
    else (acc.1 ++ [line], acc.2) := by
  rw [rewriteLine, isUrlsLine]
  generalize "backend_urls".toList.isPrefixOf (lstrip line) = list
  generalize ("backend_url ".toList.isPrefixOf (lstrip line) ||
    "backend_url=".toList.isPrefixOf (lstrip line)) = single
  cases list <;> cases single <;> rfl

/-- Once the list is written the lines that are taken are dropped. -/
theorem foldl_rewriteLine_written (lines out : List Line) :
    lines.foldl (rewriteLine urls) (out, true) = (out ++ lines.filter (!isUrlsLine ·), true) := by
  induction lines generalizing out with
  | nil => simp
  | cons line lines ih =>
      rw [List.foldl_cons, rewriteLine_eq]
      cases hline : isUrlsLine line <;> simp [hline, ih]

/-- The first line that is taken is replaced, or a line is added, and the others are dropped. -/
theorem outLines_eq (lines : List Line) : outLines urls lines =
    lines.takeWhile (!isUrlsLine ·) ++
      urlsLine urls :: (lines.dropWhile (!isUrlsLine ·)).filter (!isUrlsLine ·) := by
  have hfold : ∀ (lines out : List Line),
      (if (lines.foldl (rewriteLine urls) (out, false)).2 then
          (lines.foldl (rewriteLine urls) (out, false)).1
        else (lines.foldl (rewriteLine urls) (out, false)).1 ++ [urlsLine urls]) =
      out ++ (lines.takeWhile (!isUrlsLine ·) ++
        urlsLine urls :: (lines.dropWhile (!isUrlsLine ·)).filter (!isUrlsLine ·)) := by
    intro lines
    induction lines with
    | nil => simp
    | cons line lines ih =>
        intro out
        rw [List.foldl_cons, rewriteLine_eq]
        cases hline : isUrlsLine line with
        | true => simp [hline, foldl_rewriteLine_written]
        | false => simp [hline, ih]
  exact hfold lines []

/-! ## the items out -/

/-- The items before the first that is taken. -/
def itemsBefore (l : List Item) : List Item := l.takeWhile (!taken ·)

/-- The items after it that stay. -/
def itemsAfter (l : List Item) : List Item := (l.dropWhile (!taken ·)).filter (!taken ·)

theorem itemLines_of_not_mem {x : Item} (h : '\n' ∉ x.2) : itemLines x = [x.2] :=
  List.splitOnP_eq_singleton fun c hc => by
    have hne : c ≠ '\n' := fun he => h (he ▸ hc)
    simpa using hne

theorem itemLines_of_taken {x : Item} (h : '\n' ∉ x.2) (hx : taken x = true) :
    itemLines x = [x.2] ∧ isUrlsLine x.2 = true := by
  have hlines := itemLines_of_not_mem h
  rw [taken, hlines] at hx
  exact ⟨hlines, by simpa using hx⟩

theorem isUrlsLine_of_not_taken {x : Item} (hx : taken x = false) {line : Line}
    (hline : line ∈ itemLines x) : (!isUrlsLine line) = true := by
  rw [taken, List.any_eq_false] at hx
  simpa using hx line hline

theorem filter_itemLines {l : List Item} (h : Single l) :
    (l.flatMap itemLines).filter (!isUrlsLine ·) = (l.filter (!taken ·)).flatMap itemLines := by
  induction l with
  | nil => rfl
  | cons x l ih =>
      rw [List.flatMap_cons, List.filter_append, ih fun y hy => h y (List.mem_cons_of_mem x hy)]
      cases hx : taken x with
      | true =>
          obtain ⟨hlines, hurls⟩ := itemLines_of_taken (h x List.mem_cons_self hx) hx
          simp [hx, hlines, hurls]
      | false =>
          rw [List.filter_eq_self.mpr fun line => isUrlsLine_of_not_taken hx]
          simp [hx]

/-- Of an item that is taken the first line is. -/
def FirstTaken (l : List Item) : Prop := ∀ x ∈ l, taken x = true →
  ∃ first more, itemLines x = first :: more ∧ isUrlsLine first = true

theorem Single.firstTaken {l : List Item} (h : Single l) : FirstTaken l := by
  intro x hx htaken
  obtain ⟨hlines, hurls⟩ := itemLines_of_taken (h x hx htaken) htaken
  exact ⟨x.2, [], hlines, hurls⟩

/-- The lines that stay from the first item on that is taken. -/
def linesAfter (l : List Item) : List Line :=
  ((l.dropWhile (!taken ·)).flatMap itemLines).filter (!isUrlsLine ·)

theorem linesAfter_of_single {l : List Item} (h : Single l) :
    linesAfter l = (itemsAfter l).flatMap itemLines :=
  filter_itemLines fun x hx => h x ((List.dropWhile_sublist _).subset hx)

/-- The lines out are those of the items, with one line between them. -/
theorem outLines_itemLines {l : List Item} (h : FirstTaken l) :
    outLines urls (l.flatMap itemLines) =
      (itemsBefore l).flatMap itemLines ++ urlsLine urls :: linesAfter l := by
  rw [outLines_eq]
  induction l with
  | nil => rfl
  | cons x l ih =>
      cases hx : taken x with
      | true =>
          obtain ⟨first, more, hlines, hurls⟩ := h x List.mem_cons_self hx
          simp [itemsBefore, linesAfter, hx, hlines, hurls]
      | false =>
          have hrest := ih fun y hy => h y (List.mem_cons_of_mem x hy)
          have hnot : ∀ line ∈ itemLines x, (!isUrlsLine line) = true := fun line =>
            isUrlsLine_of_not_taken hx
          rw [List.flatMap_cons, List.takeWhile_append_of_pos hnot,
            List.dropWhile_append_of_pos hnot, List.append_assoc, hrest]
          simp [itemsBefore, linesAfter, hx]

end Lines

/-! ## the text of the new file -/

theorem joinLines_itemLines (l : List Item) :
    joinLines (l.flatMap itemLines) = joinLines (l.map Prod.snd) := by
  induction l with
  | nil => rfl
  | cons x l ih =>
      rw [List.flatMap_cons, joinLines_append, itemLines, joinLines_splitOn, ih, List.map_cons,
        joinLines_cons, List.append_assoc]
      rfl

theorem urlsLine_eq (urls : List Text) : urlsLine urls = assigned listKey urls := rfl

theorem crlf_quotedItems (ss : List Text) (rest : Text) : crlf (quotedItems ss ++ ']' :: rest) =
    quotedItems (ss.map crlf) ++ ']' :: crlf rest := by
  have hquoted : ∀ s rest : Text, crlf (quoted s ++ rest) =
      '"' :: (crlf s ++ '"' :: crlf rest) := by
    intro s rest
    have htext : quoted s ++ rest = '"' :: (s ++ '"' :: rest) := by simp [quoted]
    rw [htext, crlf_cons (by decide), crlf_append_cons (by decide) (by decide)]
  induction ss with
  | nil => exact crlf_cons (by decide) rest
  | cons s ss ih =>
      cases ss with
      | nil =>
          have hitems : ∀ s, quotedItems [s] = quoted s := fun s => by
            simp [quotedItems, List.intercalate]
          rw [List.map_cons, List.map_nil, hitems, hitems, hquoted, crlf_cons (by decide)]
          simp [quoted]
      | cons s' ss =>
          rw [List.map_cons, List.map_cons, quotedItems_cons_cons, quotedItems_cons_cons,
            List.append_assoc, hquoted, List.cons_append, List.cons_append, crlf_cons (by decide),
            crlf_cons (by decide), ih]
          simp [quoted]

/-- The end of a text without a newline at its end. -/
def blank (text : Text) : List Item := if text.getLast? = some '\n' then [] else [(none, [])]

section Text

variable {text : Text} {l : List Item}

/-- The lines of the file are those of its items. -/
theorem splitlines_eq (h : items (joinLines (splitlines text)).length (joinLines (splitlines text)) =
    some l) : splitlines text = l.flatMap itemLines := by
  obtain ⟨hjoin, -⟩ := reads_of_items h
  refine joinLines_inj (fun line hline hmem => ?_) (fun line hline => ?_) ?_
  · have hnot := not_isLineBreak_of_mem_splitlines hline '\n' hmem
    cases hnot
  · obtain ⟨x, -, hline⟩ := List.mem_flatMap.mp hline
    exact fun hmem => by simpa using not_of_mem_splitOnP hline '\n' hmem
  · rw [joinLines_itemLines, ← hjoin]

theorem not_return (h : items (joinLines (splitlines text)).length (joinLines (splitlines text)) =
    some l) : '\r' ∉ joinLines (l.map Prod.snd) := by
  obtain ⟨hjoin, -⟩ := reads_of_items h
  rw [← hjoin]
  intro hmem
  rcases mem_joinLines hmem with he | ⟨line, hline, hmem⟩
  · cases he
  · have hnot := not_isLineBreak_of_mem_splitlines hline '\r' hmem
    cases hnot

theorem joinLines_blank (text : Text) : joinLines ((blank text).map Prod.snd) =
    if text.getLast? = some '\n' then [] else ['\n'] := by
  rw [blank]
  split <;> rfl

theorem rewrite_concat (h : items (joinLines (splitlines text)).length
    (joinLines (splitlines text)) = some l) (hfirst : FirstTaken l) (urls : List Text) :
    rewriteBackendUrlsInToml text urls ++ ['\n'] = joinLines ((itemsBefore l).map Prod.snd) ++
      (assigned listKey urls ++ '\n' :: joinLines (linesAfter l ++ (blank text).map Prod.snd)) := by
  have hlines : joinLines (outLines urls (splitlines text)) = joinLines ((itemsBefore l).map Prod.snd) ++
      (assigned listKey urls ++ '\n' :: joinLines (linesAfter l)) := by
    rw [splitlines_eq h, outLines_itemLines hfirst, joinLines_append, joinLines_itemLines,
      joinLines_cons, urlsLine_eq]
  have hne : outLines urls (splitlines text) ≠ [] := by
    rw [outLines_eq]
    simp
  rw [joinLines_eq_intercalate hne] at hlines
  have hend : ∀ e : Text, (e = [] ∨ e = ['\n']) → e ++ ['\n'] = ['\n'] ++ e := by
    rintro e (rfl | rfl) <;> rfl
  rw [rewriteBackendUrlsInToml, List.append_assoc, hend _ (by split <;> simp), ← List.append_assoc,
    hlines, joinLines_append, joinLines_blank]
  simp

theorem not_return_linesAfter (h : items (joinLines (splitlines text)).length
    (joinLines (splitlines text)) = some l) :
    '\r' ∉ joinLines (linesAfter l ++ (blank text).map Prod.snd) := by
  rw [joinLines_append, joinLines_blank, List.mem_append]
  rintro (hmem | hmem)
  · rcases mem_joinLines hmem with he | ⟨line, hline, hmem⟩
    · cases he
    · obtain ⟨x, hx, hline⟩ := List.mem_flatMap.mp (List.mem_of_mem_filter hline)
      refine not_return h ?_
      rw [← joinLines_itemLines]
      refine List.mem_flatMap.mpr ⟨line, List.mem_flatMap.mpr ⟨x, ?_, hline⟩,
        List.mem_append_left _ hmem⟩
      exact (List.dropWhile_sublist _).subset hx
  · split at hmem <;> simp at hmem

/-- **The text** that is read is that of the items, with one line between them. -/
theorem crlf_rewrite (h : items (joinLines (splitlines text)).length
    (joinLines (splitlines text)) = some l) (hfirst : FirstTaken l) (urls : List Text) :
    crlf (rewriteBackendUrlsInToml text urls) ++ ['\n'] = joinLines ((itemsBefore l).map Prod.snd) ++
      (assigned listKey (urls.map crlf) ++
        '\n' :: joinLines (linesAfter l ++ (blank text).map Prod.snd)) := by
  have hbefore : '\r' ∉ joinLines ((itemsBefore l).map Prod.snd) := by
    intro hmem
    obtain ⟨line, hline, hmem⟩ := List.mem_flatMap.mp hmem
    have hsub : itemsBefore l ⊆ l := (List.takeWhile_sublist _).subset
    exact not_return h (List.mem_flatMap.mpr ⟨line, List.map_subset Prod.snd hsub hline, hmem⟩)
  have hlast := not_return_linesAfter h
  obtain ⟨rest, hrest⟩ : ∃ rest, '\n' :: joinLines (linesAfter l ++ (blank text).map Prod.snd) =
      rest ++ ['\n'] := by
    have hjoin := joinLines_eq_intercalate
      (List.cons_ne_nil [] (linesAfter l ++ (blank text).map Prod.snd))
    rw [joinLines_cons] at hjoin
    exact ⟨_, hjoin⟩
  have hreturn : '\r' ∉ rest := fun hmem => by
    have hcons : '\r' ∈ '\n' :: joinLines (linesAfter l ++ (blank text).map Prod.snd) := by
      rw [hrest]
      exact List.mem_append_left _ hmem
    rcases List.mem_cons.mp hcons with he | hmem
    · cases he
    · exact hlast hmem
  have hassigned : ∀ ss : List Text, assigned listKey ss ++ (rest ++ ['\n']) =
      "backend_urls = [".toList ++ (quotedItems ss ++ ']' :: rest) ++ ['\n'] := by
    intro ss
    have hkey : listKey ++ " = [".toList = "backend_urls = [".toList := by decide
    rw [assigned, hkey]
    simp only [List.append_assoc, List.cons_append, List.nil_append]
  have htext := rewrite_concat h hfirst urls
  rw [hrest, hassigned, ← List.append_assoc] at htext
  rw [List.append_cancel_right htext, hrest, hassigned, crlf_append_of_not_mem hbefore,
    List.append_assoc ("backend_urls = [".toList), crlf_append_of_not_mem (by decide),
    crlf_quotedItems, crlf_eq_self hreturn]
  simp only [List.append_assoc]

end Text

end BackendUrls

end CoreLab
