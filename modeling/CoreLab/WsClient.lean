import CoreLab.BackendUrls
import CoreLab.Lib.History
import CoreLab.Lib.Transition
import Mathlib.Algebra.Order.Field.Rat
import Mathlib.Data.List.Infix

/-!
# CoreLab.WsClient

The agent's connection to the backend: the URLs it dials, and the loop that dials them.

* `buildConnectUrl_toWss` — a URL that the backend has translated is dialled as the URL itself
  would be;
* `Allowed` — what the loop may do next, said of what it has done so far;
* `reconnects_run` — and no run of it does anything else.
-/

namespace CoreLab

open Transition History

namespace WsClient

open BackendUrls (Text AgentConfig)

/-! ## URLs -/

/-- The settings that the client reads besides the URLs. -/
structure Settings where
  enrollmentToken : Option Text
  agentToken : Option Text
  serverId : Option Nat
  reconnectMaxSeconds : Rat
deriving DecidableEq

abbrev Config := AgentConfig Settings

/-- `rstrip("/")`. -/
def rstripSlash (url : Text) : Text := url.rdropWhile (· = '/')

/-- `http` becomes `ws`, and `https` becomes `wss`. -/
def wsScheme (url : Text) : Text :=
  if "https://".toList.isPrefixOf url then "wss://".toList ++ url.drop "https://".toList.length
  else if "http://".toList.isPrefixOf url then "ws://".toList ++ url.drop "http://".toList.length
  else url

/-- The path of the endpoint. -/
def wsAgent : Text := "/ws/agent".toList

/-- `_to_wss` of the backend. -/
def toWss (url : Text) : Text :=
  let u := wsScheme (rstripSlash url)
  if wsAgent.isSuffixOf u then u else u ++ wsAgent

/-- `config.agent_token or config.enrollment_token`, where it is not empty. -/
def token (s : Settings) : Option Text :=
  match s.agentToken.filter (· ≠ []) with
  | some t => some t
  | none => s.enrollmentToken.filter (· ≠ [])

/-- The parameters of the query. -/
def params (s : Settings) : List Text :=
  ((token s).map ("token=".toList ++ ·)).toList ++
    (s.serverId.map fun id => "server_id=".toList ++ Nat.toDigits 10 id).toList

/-- `_build_connect_url_from_base`. -/
def buildConnectUrlFromBase (s : Settings) (base : Text) : Text :=
  let base := wsScheme (rstripSlash base)
  let path := if wsAgent.isSuffixOf base then [] else wsAgent
  if params s = [] then base ++ path
  else base ++ path ++ '?' :: ['&'].intercalate (params s)

/-- `build_connect_urls`. -/
def buildConnectUrls (config : Config) : List Text :=
  config.backendUrls.map (buildConnectUrlFromBase config.others)

/-- `_redact_query`. -/
def redactQuery (url : Text) : Text := url.takeWhile (· ≠ '?')

/-- What is dialled begins with what the backend makes of the URL. -/
theorem buildConnectUrlFromBase_eq (s : Settings) (base : Text) :
    buildConnectUrlFromBase s base =
      toWss base ++ if params s = [] then [] else '?' :: ['&'].intercalate (params s) := by
  simp only [buildConnectUrlFromBase, toWss]
  split <;> split <;> simp

theorem rstripSlash_eq_self {url : Text} (h : url.getLast? ≠ some '/') : rstripSlash url = url := by
  rw [rstripSlash, List.rdropWhile_eq_self_iff]
  intro hne hlast
  rw [List.getLast?_eq_getLast_of_ne_nil hne, of_decide_eq_true hlast] at h
  exact h rfl

theorem getLast?_of_suffix {url : Text} (h : wsAgent <:+ url) : url.getLast? = some 't' := by
  obtain ⟨front, rfl⟩ := h
  rw [List.getLast?_append]
  rfl

theorem getLast?_rstripSlash (url : Text) : (rstripSlash url).getLast? ≠ some '/' := by
  intro h
  have hne : rstripSlash url ≠ [] := by
    rintro hnil
    rw [hnil] at h
    cases h
  refine List.rdropWhile_last_not _ url hne (decide_eq_true ?_)
  rwa [List.getLast?_eq_some_getLast hne, Option.some.injEq] at h

/-- The path of the endpoint does not complete a scheme that a text without its last slash has
begun. -/
theorem not_prefix_append_wsAgent {scheme url : Text}
    (hscheme : ∀ front ∈ scheme.inits, front.getLast? ≠ some '/' →
      scheme.isPrefixOf (front ++ wsAgent) = false)
    (hurl : url.getLast? ≠ some '/') (h : ¬ scheme <+: url) : ¬ scheme <+: url ++ wsAgent := by
  intro hprefix
  rcases List.prefix_or_prefix_of_prefix hprefix (List.prefix_append url wsAgent) with h' | h'
  · exact h h'
  · have hfalse := hscheme url ((List.mem_inits _ _).mpr h') hurl
    rw [List.isPrefixOf_iff_prefix.mpr hprefix] at hfalse
    cases hfalse

/-- What is dialled has no user-facing scheme. -/
theorem wsScheme_toWss (url : Text) : wsScheme (toWss url) = toWss url := by
  have hfree : ¬ "https://".toList <+: toWss url ∧ ¬ "http://".toList <+: toWss url := by
    simp only [toWss, wsScheme, List.isPrefixOf_iff_prefix]
    split
    · split <;> constructor <;> rintro ⟨rest, h⟩ <;> cases h
    · next hs =>
        split
        · split <;> constructor <;> rintro ⟨rest, h⟩ <;> cases h
        · next hh =>
            split
            · exact ⟨hs, hh⟩
            · have hlast := getLast?_rstripSlash url
              exact ⟨not_prefix_append_wsAgent (by decide) hlast hs,
                not_prefix_append_wsAgent (by decide) hlast hh⟩
  rw [wsScheme, if_neg (by simpa using hfree.1), if_neg (by simpa using hfree.2)]

theorem wsAgent_suffix_toWss (url : Text) : wsAgent <:+ toWss url := by
  simp only [toWss]
  split
  · next h => exact List.isSuffixOf_iff_suffix.mp h
  · exact List.suffix_append _ _

/-- **A translated URL** is translated to itself. -/
theorem toWss_toWss (url : Text) : toWss (toWss url) = toWss url := by
  have hsuffix := wsAgent_suffix_toWss url
  have hstrip : rstripSlash (toWss url) = toWss url :=
    rstripSlash_eq_self (by rw [getLast?_of_suffix hsuffix]; decide)
  rw [toWss, hstrip, wsScheme_toWss, if_pos (List.isSuffixOf_iff_suffix.mpr hsuffix)]

theorem redactQuery_append_question (url query : Text) :
    redactQuery (url ++ '?' :: query) = redactQuery url := by
  induction url with
  | nil => rfl
  | cons c url ih =>
      rw [List.cons_append, redactQuery, redactQuery, List.takeWhile_cons, List.takeWhile_cons]
      split
      · exact congrArg (c :: ·) ih
      · rfl

/-- **The two sides agree on URLs**: a URL that the backend has translated, once or more often, is
dialled as the URL itself would be, and what is logged of it depends on no secret. -/
theorem connectUrl_laws (s : Settings) (base : Text) :
    toWss (toWss base) = toWss base ∧
      buildConnectUrlFromBase s (toWss base) = buildConnectUrlFromBase s base ∧
      ∀ s', redactQuery (buildConnectUrlFromBase s base) =
        redactQuery (buildConnectUrlFromBase s' base) := by
  refine ⟨toWss_toWss base, ?_, fun s' => ?_⟩
  · rw [buildConnectUrlFromBase_eq, buildConnectUrlFromBase_eq, toWss_toWss]
  · have hredact (s : Settings) :
        redactQuery (buildConnectUrlFromBase s base) = redactQuery (toWss base) := by
      rw [buildConnectUrlFromBase_eq]
      split
      · rw [List.append_nil]
      · exact redactQuery_append_question _ _
    rw [hredact, hredact]

/-! ## the loop -/

/-- `DEFAULT_BACKOFF_SCHEDULE`. -/
def defaultBackoffSchedule : List Rat := [1, 2, 5, 15, 30]

/-- `next_backoff_seconds`. -/
def nextBackoffSeconds (attempt : Nat) (maxSeconds : Rat) : Rat :=
  if attempt < 1 then 0
  else min (defaultBackoffSchedule.getD (min (attempt - 1) (defaultBackoffSchedule.length - 1)) 0)
    maxSeconds

example : [1, 2, 3, 4, 5, 6].map (nextBackoffSeconds · 20) = [1, 2, 5, 15, 20, 20] := by decide

/-- Where the loop is. -/
inductive Phase where
  /-- At its condition. -/
  | idle
  /-- In `websockets.connect`, with the URLs that come after this one. -/
  | dialling (url : Text) (rest : List Text)
  /-- In `_pump`. -/
  | connected (rest : List Text)
  /-- Waiting for `_stop_event`. -/
  | waiting
  | ended
deriving DecidableEq

structure Client where
  config : Config
  attempt : Nat
  stopEvent : Bool
  phase : Phase
deriving DecidableEq

/-- What the client does, as seen from outside. -/
inductive Event where
  /-- The candidate URLs of one turn of the loop. -/
  | round (urls : List Text)
  /-- `websockets.connect` is called. -/
  | dial (url : Text)
  | failed (url : Text)
  | opened (url : Text)
  /-- The connection broke. -/
  | lost
  /-- The connection was closed cleanly. -/
  | closed
  /-- A request of the backend replaced the URLs. -/
  | applied (urls : List Text)
  | stopRequested
  | wait (delaySeconds : Rat)
deriving DecidableEq

inductive Action where
  | enter
  | connect (opens : Bool)
  | hangUp (cleanly : Bool)
  | updateUrls (urls : List Text)
  | requestStop
  | wake
  | cancel
deriving DecidableEq

/-- The client, and what it has done. -/
structure World where
  client : Client
  log : List Event
deriving DecidableEq

namespace World

def start (config : Config) : World := ⟨⟨config, 0, false, .idle⟩, []⟩

/-- One more thing done, and where the loop is then. -/
def did (w : World) (e : Event) : World := { w with log := w.log ++ [e] }

def goto (w : World) (p : Phase) : World := { w with client := { w.client with phase := p } }

def count (w : World) (attempt : Nat) : World :=
  { w with client := { w.client with attempt := attempt } }

/-- The next URL is dialled. -/
def dial (w : World) (url : Text) (rest : List Text) : World :=
  (w.did (.dial url)).goto (.dialling url rest)

/-- The wait before the next turn, which counts as one more attempt. -/
def backOff (w : World) (attempt : Nat) : World :=
  ((w.count attempt).did
    (.wait (nextBackoffSeconds attempt w.client.config.others.reconnectMaxSeconds))).goto .waiting

/-- The rest of a turn after the `for` loop. -/
def afterUrls (w : World) (anyConnected : Bool) : World :=
  if w.client.stopEvent then w.goto .ended
  else w.backOff (if anyConnected then 1 else w.client.attempt + 1)

/-- The rest of a turn after an exception in `_connect_once`. -/
def afterFailure (w : World) : List Text → World
  | [] => w.afterUrls false
  | url :: rest => if w.client.stopEvent then w.goto .ended else w.dial url rest

end World

/-- `run`. -/
def step (w : World) : Action → Option World
  | .enter =>
    match w.client.phase with
    | .idle =>
      if w.client.stopEvent then some (w.goto .ended)
      else
        let urls := buildConnectUrls w.client.config
        some (match urls with
          | [] => (w.did (.round [])).afterUrls false
          | url :: rest => (w.did (.round (url :: rest))).dial url rest)
    | _ => none
  | .connect opens =>
    match w.client.phase with
    | .dialling url rest =>
      if opens then
        some (((w.count 0).did (.opened url)).goto (.connected rest))
      else some ((w.did (.failed url)).afterFailure rest)
    | _ => none
  | .hangUp cleanly =>
    match w.client.phase with
    | .connected rest =>
      some (if cleanly then (w.did .closed).afterUrls true else (w.did .lost).afterFailure rest)
    | _ => none
  | .updateUrls urls =>
    match w.client.phase with
    | .connected _ =>
      if urls = [] then some w
      else some (({ w with
        client := { w.client with
          config := { w.client.config with backendUrls := urls } } } : World).did (.applied urls))
    | _ => none
  | .requestStop =>
    some (({ w with client := { w.client with stopEvent := true } } : World).did .stopRequested)
  | .wake =>
    match w.client.phase with
    | .waiting => some (w.goto .idle)
    | _ => none
  | .cancel => if w.client.phase = .ended then none else some (w.goto .ended)

/-! ## what the loop may do -/

/-- What a log tells of the loop. -/
structure Seen where
  /-- The URLs in force. -/
  urls : List Text
  /-- The candidates of this turn, those dialled so far, and the one being dialled. -/
  candidates : List Text
  dialled : List Text
  underWay : Option Text
  /-- The connection is open; or it was closed cleanly in this turn. -/
  live : Bool
  closed : Bool
  /-- No turn has begun since the last wait. -/
  paused : Bool
  /-- The waits since a connection was last opened. -/
  waits : Nat
  /-- A stop was requested. -/
  stopped : Bool
deriving DecidableEq

namespace Seen

def start (urls : List Text) : Seen := ⟨urls, [], [], none, false, false, true, 0, false⟩

def next (s : Seen) : Event → Seen
  | .round urls => { s with candidates := urls, dialled := [], closed := false, paused := false }
  | .dial url => { s with dialled := s.dialled ++ [url], underWay := some url }
  | .failed _ => { s with underWay := none }
  | .opened _ => { s with underWay := none, live := true, waits := 0 }
  | .lost => { s with live := false }
  | .closed => { s with live := false, closed := true }
  | .applied urls => { s with urls := urls }
  | .stopRequested => { s with stopped := true }
  | .wait _ => { s with paused := true, waits := s.waits + 1 }

/-- The loop is in a turn, and in neither a dial nor a session. -/
structure Between (s : Seen) : Prop where
  turn : s.paused = false
  offline : s.live = false
  free : s.underWay = none

/-- A URL may be dialled: the next candidate of a turn that has not succeeded, where no stop was
requested. -/
structure MayDial (s : Seen) (url : Text) : Prop extends Between s where
  failed : s.closed = false
  inOrder : s.dialled ++ [url] <+: s.candidates
  running : s.stopped = false

/-- The loop may wait: the turn ended in a clean disconnect, or has tried every candidate. -/
structure MayWait (s : Seen) (maxSeconds delaySeconds : Rat) : Prop extends Between s where
  running : s.stopped = false
  exhausted : s.closed = true ∨ s.dialled = s.candidates
  delay : delaySeconds = nextBackoffSeconds (s.waits + 1) maxSeconds

end Seen

/-- What a log tells, from the configured URLs on. -/
def seen (config : Config) (log : List Event) : Seen :=
  log.foldl Seen.next (.start config.backendUrls)

/-- What may be done next. -/
def Allowed (config : Config) (before : List Event) : Event → Prop
  | .round urls =>
    let s := seen config before
    s.paused = true ∧ s.stopped = false ∧ urls = s.urls.map (buildConnectUrlFromBase config.others)
  | .dial url => (seen config before).MayDial url
  | .failed url | .opened url => (seen config before).underWay = some url
  | .lost | .closed => (seen config before).live = true
  | .applied urls => (seen config before).live = true ∧ urls ≠ []
  | .stopRequested => True
  | .wait delaySeconds =>
    (seen config before).MayWait config.others.reconnectMaxSeconds delaySeconds

/-- The phase is the one that the log tells of. -/
def Phase.Matches (s : Seen) : Phase → Prop
  | .idle | .waiting => s.paused = true ∧ s.live = false ∧ s.underWay = none
  | .dialling url rest =>
    (s.paused = false ∧ s.live = false ∧ s.closed = false) ∧
      s.underWay = some url ∧ s.candidates = s.dialled ++ rest
  | .connected rest =>
    (s.paused = false ∧ s.live = true ∧ s.closed = false) ∧
      s.underWay = none ∧ s.candidates = s.dialled ++ rest ∧ s.waits = 0
  | .ended => True

/-- The log is lawful, and tells the state of the client but for its phase. -/
structure Tells (config : Config) (w : World) : Prop where
  lawful : Lawful (Allowed config) w.log
  others : w.client.config.others = config.others
  urls : (seen config w.log).urls = w.client.config.backendUrls
  attempt : (seen config w.log).waits = w.client.attempt
  stop : (seen config w.log).stopped = w.client.stopEvent

/-- The invariant. -/
structure Inv (config : Config) (w : World) : Prop extends Tells config w where
  phase : w.client.phase.Matches (seen config w.log)

section Steps

variable {config : Config} {w w' : World}

theorem seen_concat (log : List Event) (e : Event) :
    seen config (log ++ [e]) = (seen config log).next e := List.foldl_concat ..

theorem inv_start (config : Config) : Inv config (.start config) :=
  ⟨⟨lawful_nil, rfl, rfl, rfl, rfl⟩, rfl, rfl, rfl⟩

theorem Tells.goto (h : Tells config w) {p : Phase} (hp : p.Matches (seen config w.log)) :
    Inv config (w.goto p) :=
  ⟨⟨h.lawful, h.others, h.urls, h.attempt, h.stop⟩, hp⟩

/-- An event that changes nothing of the client. -/
theorem Tells.did (h : Tells config w) {e : Event} (hallowed : Allowed config w.log e)
    (hurls : ((seen config w.log).next e).urls = (seen config w.log).urls)
    (hwaits : ((seen config w.log).next e).waits = (seen config w.log).waits)
    (hstop : ((seen config w.log).next e).stopped = (seen config w.log).stopped) :
    Tells config (w.did e) where
  lawful := h.lawful.concat hallowed
  others := h.others
  urls := by rw [World.did, seen_concat, hurls, h.urls]
  attempt := by rw [World.did, seen_concat, hwaits, h.attempt]
  stop := by rw [World.did, seen_concat, hstop, h.stop]

/-- The next candidate of a turn is dialled. -/
theorem Tells.dial (h : Tells config w) {url : Text} {rest : List Text}
    (hbetween : (seen config w.log).Between) (hclosed : (seen config w.log).closed = false)
    (hrest : (seen config w.log).candidates = (seen config w.log).dialled ++ url :: rest)
    (hstop : w.client.stopEvent = false) : Inv config (w.dial url rest) := by
  have hmay : (seen config w.log).MayDial url :=
    ⟨hbetween, hclosed, hrest ▸ ⟨rest, by simp⟩, h.stop.trans hstop⟩
  refine (h.did (e := .dial url) hmay rfl rfl rfl).goto ?_
  simp only [World.did, seen_concat, Seen.next]
  exact ⟨⟨hbetween.turn, hbetween.offline, hclosed⟩, rfl, by simpa using hrest⟩

/-- The end of a turn. -/
theorem Tells.afterUrls (h : Tells config w) {anyConnected : Bool}
    (hbetween : (seen config w.log).Between)
    (hend : (seen config w.log).closed = true ∨
      (seen config w.log).dialled = (seen config w.log).candidates)
    (hwaits : anyConnected = true → (seen config w.log).waits = 0) :
    Inv config (w.afterUrls anyConnected) := by
  unfold World.afterUrls
  split
  · exact h.goto (p := .ended) True.intro
  · next hstop =>
      have hrunning := h.stop.trans (Bool.eq_false_iff.mpr hstop)
      have hattempt : (if anyConnected then 1 else w.client.attempt + 1) =
          (seen config w.log).waits + 1 := by
        cases anyConnected with
        | true => rw [hwaits rfl]; rfl
        | false => rw [h.attempt]; rfl
      rw [hattempt]
      have hallowed : Allowed config w.log
          (.wait (nextBackoffSeconds ((seen config w.log).waits + 1)
            w.client.config.others.reconnectMaxSeconds)) :=
        ⟨hbetween, hrunning, hend, by rw [h.others]⟩
      have htells : Tells config ((w.count ((seen config w.log).waits + 1)).did
          (.wait (nextBackoffSeconds ((seen config w.log).waits + 1)
            w.client.config.others.reconnectMaxSeconds))) := by
        refine ⟨h.lawful.concat hallowed, h.others, ?_, ?_, ?_⟩ <;>
          simp only [World.did, World.count, seen_concat, Seen.next]
        · exact h.urls
        · exact h.stop
      refine htells.goto (p := .waiting) ?_
      simp only [World.did, World.count, seen_concat, Seen.next]
      exact ⟨rfl, hbetween.offline, hbetween.free⟩

/-- The `for` loop after an exception. -/
theorem Tells.afterFailure (h : Tells config w) {rest : List Text}
    (hbetween : (seen config w.log).Between) (hclosed : (seen config w.log).closed = false)
    (hrest : (seen config w.log).candidates = (seen config w.log).dialled ++ rest) :
    Inv config (w.afterFailure rest) := by
  cases rest with
  | nil =>
      rw [List.append_nil] at hrest
      exact h.afterUrls hbetween (Or.inr hrest.symm) (by simp)
  | cons url rest =>
      rw [World.afterFailure]
      split
      · exact h.goto (p := .ended) True.intro
      · next hstop => exact h.dial hbetween hclosed hrest (Bool.eq_false_iff.mpr hstop)

theorem inv_enter (h : Inv config w) (hs : step w .enter = some w') : Inv config w' := by
  have hphase := h.phase
  simp only [step] at hs
  split at hs
  · next hidle =>
      rw [hidle] at hphase
      obtain ⟨hpaused, hoffline, hfree⟩ := hphase
      split at hs
      · exact Option.some.inj hs ▸ h.goto (p := .ended) True.intro
      · next hstop =>
          have hstopped : w.client.stopEvent = false := Bool.eq_false_iff.mpr hstop
          have hallowed : Allowed config w.log (.round (buildConnectUrls w.client.config)) :=
            ⟨hpaused, h.stop.trans hstopped, by rw [h.urls, ← h.others]; rfl⟩
          have htells := h.did hallowed rfl rfl rfl
          have hseen : seen config (w.did (.round (buildConnectUrls w.client.config))).log =
              (seen config w.log).next (.round (buildConnectUrls w.client.config)) :=
            seen_concat _ _
          have hbetween : (seen config
              (w.did (.round (buildConnectUrls w.client.config))).log).Between := by
            rw [hseen]
            exact ⟨rfl, hoffline, hfree⟩
          cases hurls : buildConnectUrls w.client.config with
          | nil =>
              rw [hurls] at hs htells hseen hbetween
              exact Option.some.inj hs ▸
                htells.afterUrls hbetween (Or.inr (by rw [hseen]; rfl)) (by simp)
          | cons url rest =>
              rw [hurls] at hs htells hseen hbetween
              exact Option.some.inj hs ▸
                htells.dial hbetween (by rw [hseen]; rfl) (by rw [hseen]; rfl) hstopped
  · cases hs

theorem inv_connect {opens : Bool} (h : Inv config w) (hs : step w (.connect opens) = some w') :
    Inv config w' := by
  have hphase := h.phase
  simp only [step] at hs
  split at hs
  · next url rest hdialling =>
      rw [hdialling] at hphase
      obtain ⟨⟨hturn, hoffline, hclosed⟩, hunderWay, hcandidates⟩ := hphase
      split at hs
      · next hopens =>
          obtain rfl := Option.some.inj hs
          have hallowed : Allowed config w.log (.opened url) := hunderWay
          have htells : Tells config ((w.count 0).did (.opened url)) := by
            refine ⟨h.lawful.concat hallowed, h.others, ?_, ?_, ?_⟩ <;>
              simp only [World.did, World.count, seen_concat, Seen.next]
            · exact h.urls
            · exact h.stop
          refine htells.goto (p := .connected rest) ?_
          simp only [World.did, World.count, seen_concat, Seen.next]
          exact ⟨⟨hturn, rfl, hclosed⟩, rfl, hcandidates, rfl⟩
      · obtain rfl := Option.some.inj hs
        have htells : Tells config (w.did (.failed url)) := h.did hunderWay rfl rfl rfl
        refine htells.afterFailure ?_ ?_ ?_ <;> simp only [World.did, seen_concat, Seen.next]
        · exact ⟨hturn, hoffline, rfl⟩
        · exact hclosed
        · exact hcandidates
  · cases hs

theorem inv_hangUp {cleanly : Bool} (h : Inv config w) (hs : step w (.hangUp cleanly) = some w') :
    Inv config w' := by
  have hphase := h.phase
  simp only [step] at hs
  split at hs
  · next rest hconnected =>
      rw [hconnected] at hphase
      obtain ⟨⟨hturn, hlive, hclosed⟩, hfree, hcandidates, hwaits⟩ := hphase
      obtain rfl := Option.some.inj hs
      cases cleanly with
      | true =>
          refine (h.did (e := .closed) hlive rfl rfl rfl).afterUrls ?_ (Or.inl ?_) ?_ <;>
            simp only [World.did, seen_concat, Seen.next]
          · exact ⟨hturn, rfl, hfree⟩
          · exact fun _ => hwaits
      | false =>
          refine (h.did (e := .lost) hlive rfl rfl rfl).afterFailure ?_ ?_ ?_ <;>
            simp only [World.did, seen_concat, Seen.next]
          · exact ⟨hturn, rfl, hfree⟩
          · exact hclosed
          · exact hcandidates
  · cases hs

theorem inv_step {a : Action} (h : Inv config w) (hs : step w a = some w') : Inv config w' := by
  cases a with
  | enter => exact inv_enter h hs
  | connect opens => exact inv_connect h hs
  | hangUp cleanly => exact inv_hangUp h hs
  | updateUrls urls =>
      have hphase := h.phase
      simp only [step] at hs
      split at hs
      · next rest hconnected =>
          split at hs
          · exact Option.some.inj hs ▸ h
          · next hne =>
              obtain rfl := Option.some.inj hs
              have hlive := hconnected ▸ hphase
              refine ⟨⟨h.lawful.concat ⟨hlive.1.2.1, hne⟩, h.others, ?_, ?_, ?_⟩, ?_⟩ <;>
                simp only [World.did, seen_concat, Seen.next]
              · exact h.attempt
              · exact h.stop
              · rw [hconnected]
                exact hlive
      · cases hs
  | requestStop =>
      have hphase := h.phase
      obtain rfl := Option.some.inj hs
      refine ⟨⟨h.lawful.concat True.intro, h.others, ?_, ?_, ?_⟩, ?_⟩ <;>
        simp only [World.did, seen_concat, Seen.next]
      · exact h.urls
      · exact h.attempt
      · cases hp : w.client.phase with
        | idle | waiting | connected | ended | dialling => rw [hp] at hphase; exact hphase
  | wake =>
      have hphase := h.phase
      simp only [step] at hs
      split at hs
      · next hwaiting =>
          rw [hwaiting] at hphase
          exact Option.some.inj hs ▸ h.goto (p := .idle) hphase
      · cases hs
  | cancel =>
      simp only [step] at hs
      split at hs
      · cases hs
      · exact Option.some.inj hs ▸ h.goto (p := .ended) True.intro

end Steps

/-! ## a URL that can be reached -/

/-- A turn that has not opened a connection since a wait has dialled in vain so far. -/
structure InVain (reachable : Text → Prop) (s : Seen) : Prop where
  quiet : s.paused = true → s.live = false
  busy : s.underWay ≠ none → s.paused = false
  unopened : s.waits ≠ 0 → s.paused = false → s.live = false ∧ s.closed = false
  failed : s.waits ≠ 0 → s.paused = false →
    ∀ url ∈ s.dialled, s.underWay = some url ∨ ¬ reachable url
  candidates : s.paused = false → ∃ url ∈ s.candidates, reachable url

section Reachable

variable {reachable : Text → Prop} {s : Seen}

theorem inVain_start (urls : List Text) : InVain reachable (.start urls) :=
  ⟨fun _ => rfl, by simp [Seen.start], by simp [Seen.start], by simp [Seen.start],
    by simp [Seen.start]⟩

theorem InVain.round (h : InVain reachable s) (hpaused : s.paused = true) {urls : List Text}
    (hround : ∃ url ∈ urls, reachable url) : InVain reachable (s.next (.round urls)) :=
  ⟨fun hp => (by cases hp), fun _ => rfl, fun _ _ => ⟨h.quiet hpaused, rfl⟩, by simp [Seen.next],
    fun _ => hround⟩

theorem InVain.dial (h : InVain reachable s) {url : Text} (hmay : s.MayDial url) :
    InVain reachable (s.next (.dial url)) := by
  refine ⟨h.quiet, fun _ => hmay.turn, h.unopened, fun hwaits hp v hv => ?_, h.candidates⟩
  rcases List.mem_append.mp hv with hv | hv
  · have hfailed := (h.failed hwaits hp v hv).resolve_left (by rw [hmay.free]; exact nofun)
    exact Or.inr hfailed
  · exact Or.inl (congrArg some (List.mem_singleton.mp hv).symm)

/-- A dial ends. -/
theorem InVain.connected (h : InVain reachable s) {url : Text} (hunderWay : s.underWay = some url) :
    (¬ reachable url → InVain reachable (s.next (.failed url))) ∧
      InVain reachable (s.next (.opened url)) := by
  have hturn : s.paused = false := h.busy (by rw [hunderWay]; exact nofun)
  constructor
  · refine fun hurl => ⟨h.quiet, fun hbusy => absurd rfl hbusy, h.unopened,
      fun hwaits hp v hv => Or.inr ?_, h.candidates⟩
    rcases h.failed hwaits hp v hv with hv | hv
    · rw [hunderWay] at hv
      exact Option.some.inj hv ▸ hurl
    · exact hv
  · exact ⟨fun hp => absurd (hturn.symm.trans hp) Bool.false_ne_true, fun hbusy => absurd rfl hbusy,
      fun hwaits => absurd rfl hwaits, fun hwaits => absurd rfl hwaits, h.candidates⟩

theorem InVain.hangUp (h : InVain reachable s) (hlive : s.live = true) :
    InVain reachable (s.next .lost) ∧ InVain reachable (s.next .closed) := by
  have hopened (hwaits : s.waits ≠ 0) (hp : s.paused = false) : False := by
    rw [(h.unopened hwaits hp).1] at hlive
    cases hlive
  exact ⟨⟨fun _ => rfl, h.busy, fun hw hp => (hopened hw hp).elim, h.failed, h.candidates⟩,
    ⟨fun _ => rfl, h.busy, fun hw hp => (hopened hw hp).elim, h.failed, h.candidates⟩⟩

/-- A turn that ends has opened a connection. -/
theorem InVain.waits_eq_zero (h : InVain reachable s) {maxSeconds delaySeconds : Rat}
    (hmay : s.MayWait maxSeconds delaySeconds) : s.waits = 0 := by
  by_contra hwaits
  rcases hmay.exhausted with hclosed | hall
  · rw [(h.unopened hwaits hmay.turn).2] at hclosed
    cases hclosed
  · obtain ⟨url, hmem, hreach⟩ := h.candidates hmay.turn
    rcases h.failed hwaits hmay.turn url (hall ▸ hmem) with hunderWay | hnot
    · rw [hmay.free] at hunderWay
      cases hunderWay
    · exact hnot hreach

/-- Where every turn has a URL that opens when it is dialled, the waits are the shortest. -/
theorem shortest_waits {config : Config} {log : List Event} (h : Lawful (Allowed config) log)
    (hround : ∀ urls, Event.round urls ∈ log → ∃ url ∈ urls, reachable url)
    (hfailed : ∀ url, Event.failed url ∈ log → ¬ reachable url) :
    InVain reachable (seen config log) ∧ ∀ delaySeconds, Event.wait delaySeconds ∈ log →
      delaySeconds = nextBackoffSeconds 1 config.others.reconnectMaxSeconds := by
  induction log using List.reverseRecOn with
  | nil => exact ⟨inVain_start _, by simp⟩
  | append_singleton log e ih =>
      obtain ⟨hlog, he⟩ := lawful_concat_iff.mp h
      obtain ⟨hvain, hwaits⟩ := ih hlog (fun urls hu => hround urls (List.mem_append_left _ hu))
        (fun url hu => hfailed url (List.mem_append_left _ hu))
      have hlast (d : Rat) (hd : Event.wait d ∈ log ++ [e]) : Event.wait d ∈ log ∨ e = .wait d :=
        (List.mem_append.mp hd).imp_right fun hd => (List.mem_singleton.mp hd).symm
      rw [seen_concat]
      cases e with
      | round urls =>
          exact ⟨hvain.round he.1 (hround urls (by simp)),
            fun d hd => hwaits d ((hlast d hd).resolve_right (by simp))⟩
      | dial url =>
          exact ⟨hvain.dial he, fun d hd => hwaits d ((hlast d hd).resolve_right (by simp))⟩
      | failed url =>
          exact ⟨(hvain.connected he).1 (hfailed url (by simp)),
            fun d hd => hwaits d ((hlast d hd).resolve_right (by simp))⟩
      | opened url =>
          exact ⟨(hvain.connected he).2,
            fun d hd => hwaits d ((hlast d hd).resolve_right (by simp))⟩
      | lost =>
          exact ⟨(hvain.hangUp he).1,
            fun d hd => hwaits d ((hlast d hd).resolve_right (by simp))⟩
      | closed =>
          exact ⟨(hvain.hangUp he).2,
            fun d hd => hwaits d ((hlast d hd).resolve_right (by simp))⟩
      | applied urls | stopRequested =>
          exact ⟨⟨hvain.quiet, hvain.busy, hvain.unopened, hvain.failed, hvain.candidates⟩,
            fun d hd => hwaits d ((hlast d hd).resolve_right (by simp))⟩
      | wait d =>
          have hmay : (seen config log).MayWait config.others.reconnectMaxSeconds d := he
          have hzero := hvain.waits_eq_zero hmay
          refine ⟨⟨fun _ => hmay.offline, fun hbusy => absurd hmay.free hbusy,
            fun _ hp => (by cases hp), fun _ hp => (by cases hp), fun hp => (by cases hp)⟩,
            fun d' hd => ?_⟩
          rcases hlast d' hd with hd | heq
          · exact hwaits d' hd
          · rw [← Event.wait.inj heq, hmay.delay, hzero]

end Reachable

/-- The rules of the loop, and what follows where one URL of each turn can be reached. -/
structure Reconnects (config : Config) (log : List Event) : Prop where
  lawful : Lawful (Allowed config) log
  reachable : ∀ reachable : Text → Prop,
    (∀ urls, Event.round urls ∈ log → ∃ url ∈ urls, reachable url) →
    (∀ url, Event.failed url ∈ log → ¬ reachable url) → ∀ delaySeconds,
    Event.wait delaySeconds ∈ log →
      delaySeconds = nextBackoffSeconds 1 config.others.reconnectMaxSeconds

/-- **The loop keeps to its rules** in every run: each turn dials the URLs in force in their order,
each of them once, until a session ends cleanly; it waits only after that or when it has tried them
all, by the schedule from the last opened connection on; and once a stop is requested no turn,
no dial and no wait begins.  A URL in the list that opens whenever it is dialled keeps the
waits at the first of the schedule. -/
theorem reconnects_run (config : Config) (as : List Action) :
    Along step (fun _ _ w' => Reconnects config w'.log) (.start config) as :=
  along_of_keeps (I := Inv config)
    (fun _ _ _ h hs => ⟨inv_step h hs, (inv_step h hs).lawful,
      fun _ hround hfailed => (shortest_waits (inv_step h hs).lawful hround hfailed).2⟩)
    (inv_start config) as

end WsClient

end CoreLab
