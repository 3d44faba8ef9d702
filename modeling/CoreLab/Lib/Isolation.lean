import CoreLab.Lib.Table
import Mathlib.Logic.Function.Basic

/-!
# Lib.Isolation

Sessions of an object-relational mapper over one table with row locks.  A
session runs a `Program`: it asks for rows, changes them, and ends in a commit
or a rollback.  Plain queries read a snapshot, or the current rows under shared
locks when the session is serializable; `FOR UPDATE` reads the current rows under
exclusive locks.  The session's identity map answers with the object it loaded
first, unless the query populates existing objects.

* `Program` — what a session does, between its transaction's begin and end;
* `System.step` — one turn of one session, so a list of actions is an interleaving.

What holds of the runs is in `Lib.IsolationLogic`.
-/

namespace Isolation

open Relational Keyed

/-! ## programs -/

/-- What a session does, step by step.  `γ` is what it learns from elsewhere. -/
inductive Program (ρ ε γ : Type) [Keyed ρ] (α : Type) : Type where
  | pure (a : α)
  /-- End the transaction. -/
  | stop (commits : Bool)
  /-- Wait for something outside the table. -/
  | ask (k : γ → Program ρ ε γ α)
  /-- `session.get`. -/
  | get (id : Nat) (k : Option ρ → Program ρ ε γ α)
  /-- `SELECT … WHERE test`. -/
  | select (test : ρ → Bool) (forUpdate populateExisting : Bool) (k : List ρ → Program ρ ε γ α)
  /-- Assign columns of a loaded row and flush them. -/
  | update (id : Nat) (f : ρ → ρ) (hf : ∀ r, key (f r) = key r) (k : Program ρ ε γ α)
  /-- Insert a row under the next key. -/
  | insert (b : Table.Insertion ρ) (k : Nat → Program ρ ε γ α)
  /-- Append to the log. -/
  | emit (e : ε) (k : Program ρ ε γ α)

variable {ρ ε γ : Type} [Keyed ρ] {α β : Type}

namespace Program

/-- Run one program after the other; a program that ended the transaction stays ended. -/
def bind : Program ρ ε γ α → (α → Program ρ ε γ β) → Program ρ ε γ β
  | .pure a, f => f a
  | .stop c, _ => .stop c
  | .ask k, f => .ask fun a => (k a).bind f
  | .get id k, f => .get id fun r => (k r).bind f
  | .select test u p k, f => .select test u p fun rs => (k rs).bind f
  | .update id g hg k, f => .update id g hg (k.bind f)
  | .insert b k, f => .insert b fun id => (k id).bind f
  | .emit e k, f => .emit e (k.bind f)

instance : Monad (Program ρ ε γ) where
  pure := .pure
  bind := .bind

end Program

/-! ## sessions -/

/-- The modes of a row lock. -/
inductive Mode where
  | shared | exclusive
deriving DecidableEq, Repr

/-- The lock is granted beside a lock of another session. -/
def Mode.admits : Mode → Option Mode → Bool
  | _, none => true
  | .shared, some .shared => true
  | _, _ => false

/-- A locking query under way: the keys that were there at its start, those
visited, and the objects found. -/
structure Scan (ρ : Type) where
  bound : Nat
  visited : List Nat
  found : List ρ

/-- A session with its transaction. -/
structure Session (θ ρ ε γ : Type) [Keyed ρ] where
  request : θ
  serializable : Bool
  program : Program ρ ε γ Unit
  /-- The committed rows as of the first plain read. -/
  snapshot : Option (Nat → Option ρ) := none
  locks : Nat → Option Mode := fun _ => none
  /-- The uncommitted versions. -/
  written : Nat → Option ρ := fun _ => none
  identityMap : Nat → Option ρ := fun _ => none
  pending : List ε := []
  scan : Option (Scan ρ) := none

variable {θ : Type}

namespace Session

/-- The version of a row that the session works on. -/
def current (s : Session θ ρ ε γ) (rows : Nat → Option ρ) (id : Nat) : Option ρ :=
  (s.written id).or (rows id)

/-- The lock under which a query reads, if it does not read a snapshot. -/
def mode (s : Session θ ρ ε γ) (forUpdate : Bool) : Option Mode :=
  if forUpdate then some .exclusive else if s.serializable then some .shared else none

/-- Take a lock, or strengthen one. -/
def lock (s : Session θ ρ ε γ) (id : Nat) (m : Mode) : Session θ ρ ε γ :=
  let mode := if s.locks id = some .exclusive then .exclusive else m
  { s with locks := Function.update s.locks id (some mode) }

/-- The object that stands for a row that was read. -/
def object (s : Session θ ρ ε γ) (populateExisting : Bool) (r : ρ) : ρ :=
  if populateExisting then r else (s.identityMap (key r)).getD r

/-- Keep an object in the identity map. -/
def keep (s : Session θ ρ ε γ) (o : ρ) : Session θ ρ ε γ :=
  { s with identityMap := Function.update s.identityMap (key o) (some o) }

/-- The session after its transaction ended. -/
def ended (s : Session θ ρ ε γ) : Session θ ρ ε γ :=
  { request := s.request, serializable := s.serializable, program := .stop false }

end Session

/-! ## the system -/

/-- The committed rows and log, and the sessions. -/
structure System (θ ρ ε γ : Type) [Keyed ρ] where
  rows : Nat → Option ρ
  /-- The next key of the table; a rollback does not give keys back. -/
  nextKey : Nat
  log : List ε
  sessions : List (Session θ ρ ε γ) := []

/-- How requests are served: at which isolation level, and by which program. -/
structure Service (θ ρ ε γ : Type) [Keyed ρ] where
  serializable : θ → Bool
  program : θ → Program ρ ε γ Unit

/-- A session for a request. -/
def Service.begin (service : Service θ ρ ε γ) (request : θ) : Session θ ρ ε γ :=
  { request := request
    serializable := service.serializable request
    program := service.program request }

/-- What happens next. -/
inductive Action (θ γ : Type) where
  /-- A session starts. -/
  | start (request : θ)
  /-- A session takes its next step: with what it learns, should it ask, and with the
  key its query visits, or `none` for the end of the query. -/
  | turn (i : Nat) (answer : γ) (visit : Option Nat)
  /-- A session is rolled back: a deadlock, a timeout, a lost connection. -/
  | kill (i : Nat)

namespace System

/-- Replace session `i`. -/
def set (sys : System θ ρ ε γ) (i : Nat) (s : Session θ ρ ε γ) : System θ ρ ε γ :=
  { sys with sessions := sys.sessions.set i s }

/-- No other session stands in the way of the lock. -/
def grants (sys : System θ ρ ε γ) (i id : Nat) (m : Mode) : Bool :=
  sys.sessions.zipIdx.all fun (u, j) => j == i || m.admits (u.locks id)

/-- Session `i` commits. -/
def commit (sys : System θ ρ ε γ) (i : Nat) (s : Session θ ρ ε γ) : System θ ρ ε γ :=
  { rows := s.current sys.rows
    nextKey := sys.nextKey
    log := sys.log ++ s.pending
    sessions := sys.sessions.set i s.ended }

/-- The rows as of the session's snapshot, with its own changes. -/
def asOf (sys : System θ ρ ε γ) (s : Session θ ρ ε γ) (id : Nat) : Option ρ :=
  s.current (s.snapshot.getD sys.rows) id

/-- `session.get`. -/
def get (sys : System θ ρ ε γ) (i : Nat) (s : Session θ ρ ε γ) (id : Nat)
    (k : Option ρ → Program ρ ε γ Unit) : Option (System θ ρ ε γ) :=
  match s.identityMap id with
  | some o => some (sys.set i { s with program := k (some o) })
  | none =>
    if s.serializable then
      match s.current sys.rows id with
      | none => some (sys.set i { s with program := k none })
      | some r =>
        if sys.grants i id .shared then
          some (sys.set i { (s.lock id .shared).keep r with program := k (some r) })
        else none
    else
      let s' := { s with snapshot := some (s.snapshot.getD sys.rows), program := k (sys.asOf s id) }
      some (sys.set i ((sys.asOf s id).elim s' s'.keep))

/-- A plain query outside of a serializable transaction. -/
def selectSnapshot (sys : System θ ρ ε γ) (i : Nat) (s : Session θ ρ ε γ) (test : ρ → Bool)
    (populateExisting : Bool) (k : List ρ → Program ρ ε γ Unit) : System θ ρ ε γ :=
  let rows := (List.range sys.nextKey).filterMap fun id => (sys.asOf s id).filter test
  let found := rows.map (s.object populateExisting)
  let s' := { s with snapshot := some (s.snapshot.getD sys.rows), program := k found }
  sys.set i (found.foldl .keep s')

/-- A locking query visits the row under a key, which it keeps locked if the row matches. -/
def visitRow (sys : System θ ρ ε γ) (i : Nat) (s : Session θ ρ ε γ) (test : ρ → Bool)
    (populateExisting : Bool) (m : Mode) (scan : Scan ρ) (id : Nat) : Option (System θ ρ ε γ) :=
  let visited := id :: scan.visited
  if sys.nextKey ≤ id ∨ id ∈ scan.visited then none
  else match (s.current sys.rows id).filter test with
    | none => some (sys.set i { s with scan := some { scan with visited := visited } })
    | some r =>
      if sys.grants i id m then
        let o := s.object populateExisting r
        some (sys.set i { (s.lock id m).keep o with
          scan := some { scan with visited := visited, found := scan.found ++ [o] } })
      else none

/-- One turn of a locking query.  It ends once it visited every key that was
there at its start. -/
def selectLocked (sys : System θ ρ ε γ) (i : Nat) (s : Session θ ρ ε γ) (test : ρ → Bool)
    (populateExisting : Bool) (m : Mode) (k : List ρ → Program ρ ε γ Unit) (visit : Option Nat) :
    Option (System θ ρ ε γ) :=
  match s.scan, visit with
  | none, _ => some (sys.set i { s with scan := some ⟨sys.nextKey, [], []⟩ })
  | some scan, some id => sys.visitRow i s test populateExisting m scan id
  | some scan, none =>
    if (List.range scan.bound).all (· ∈ scan.visited) then
      some (sys.set i { s with scan := none, program := k scan.found })
    else none

/-- The flush of an assignment; a row that is gone fails it. -/
def update (sys : System θ ρ ε γ) (i : Nat) (s : Session θ ρ ε γ) (id : Nat) (f : ρ → ρ)
    (k : Program ρ ε γ Unit) : Option (System θ ρ ε γ) :=
  if sys.grants i id .exclusive then
    match s.current sys.rows id with
    | none => some (sys.set i s.ended)
    | some r => some (sys.set i { s.lock id .exclusive with
        written := Function.update s.written id (some (f r))
        identityMap := Function.update s.identityMap id ((s.identityMap id).map f)
        program := k })
  else none

/-- An insertion; its row is the session's own. -/
def insert (sys : System θ ρ ε γ) (i : Nat) (s : Session θ ρ ε γ) (b : Table.Insertion ρ)
    (k : Nat → Program ρ ε γ Unit) : System θ ρ ε γ :=
  let id := sys.nextKey
  let s' := { (s.lock id .exclusive).keep (b.1 id) with
    written := Function.update s.written id (some (b.1 id)), program := k id }
  { sys.set i s' with nextKey := id + 1 }

/-- One turn of session `i`; `none` while it waits for a lock. -/
def turn (sys : System θ ρ ε γ) (i : Nat) (s : Session θ ρ ε γ) (answer : γ) (visit : Option Nat) :
    Option (System θ ρ ε γ) :=
  match s.program with
  | .pure _ | .stop true => some (sys.commit i s)
  | .stop false => some (sys.set i s.ended)
  | .ask k => some (sys.set i { s with program := k answer })
  | .get id k => sys.get i s id k
  | .select test forUpdate populateExisting k =>
    match s.mode forUpdate with
    | none => some (sys.selectSnapshot i s test populateExisting k)
    | some m => sys.selectLocked i s test populateExisting m k visit
  | .update id f _ k => sys.update i s id f k
  | .insert b k => some (sys.insert i s b k)
  | .emit e k => some (sys.set i { s with pending := s.pending ++ [e], program := k })

/-- One step of the system that serves requests. -/
def step (service : Service θ ρ ε γ) (sys : System θ ρ ε γ) :
    Action θ γ → Option (System θ ρ ε γ)
  | .start request => some { sys with sessions := sys.sessions ++ [service.begin request] }
  | .turn i answer visit => sys.sessions[i]?.bind fun s => sys.turn i s answer visit
  | .kill i => sys.sessions[i]?.map fun s => sys.set i s.ended

end System

end Isolation
