import SearchSql.Error
import SearchSql.Json.Basic

/-!
Sessions: what a run of the program prints, reads and asks of the server, step by step. A world
that answers every question turns a session into a transcript.
-/

namespace SearchSql

/-- A call to the server. -/
inductive Call
  | get (url : String)
  | post (url : String) (body : Json)

def Call.url : Call → String
  | .get url | .post url _ => url

/-- What comes back from a call. -/
inductive Reply
  | answer (status : Nat) (body : String)
  | dropped

/-- What a path leads to. -/
inductive FileState
  | missing
  | unreadable (reason : String)
  | contents (text : String)

inductive Session (α : Type)
  | done (result : Except Error α)
  | print (line : String) (next : Session α)
  | warn (line : String) (next : Session α)
  | read (path : String) (next : FileState → Session α)
  | call (c : Call) (next : Reply → Session α)

namespace Session

variable {α β : Type}

/-- Goes on with the result of a session, unless it failed. -/
protected def bind (s : Session α) (f : α → Session β) : Session β :=
  match s with
  | .done (.ok a) => f a
  | .done (.error e) => .done (.error e)
  | .print line next => .print line (next.bind f)
  | .warn line next => .warn line (next.bind f)
  | .read path next => .read path fun state => (next state).bind f
  | .call c next => .call c fun reply => (next reply).bind f

instance : Monad Session where
  pure a := .done (.ok a)
  bind := Session.bind

/-- Goes on with the outcome of a session, be it a result or a failure. -/
def andThen (s : Session α) (f : Except Error α → Session β) : Session β :=
  match s with
  | .done result => f result
  | .print line next => .print line (next.andThen f)
  | .warn line next => .warn line (next.andThen f)
  | .read path next => .read path fun state => (next state).andThen f
  | .call c next => .call c fun reply => (next reply).andThen f

def ofExcept (result : Except Error α) : Session α := .done result

/-- Prints a line to the standard output. -/
def say (line : String) : Session Unit := .print line (.done (.ok ()))

/-- Prints lines to the standard output. -/
def sayAll : List String → Session Unit
  | [] => .done (.ok ())
  | line :: rest => .print line (sayAll rest)

/-- Prints a line to the standard error. -/
def complain (line : String) : Session Unit := .warn line (.done (.ok ()))

/-- Prints lines to the standard error. -/
def complainAll : List String → Session Unit
  | [] => .done (.ok ())
  | line :: rest => .warn line (complainAll rest)

def file (path : String) : Session FileState := .read path fun state => .done (.ok state)

def exchange (c : Call) : Session Reply := .call c fun reply => .done (.ok reply)

end Session

/-- What answers a session: the files and the server. -/
structure World where
  file : String → FileState
  reply : Call → Reply

/-- What a session left behind. -/
structure Transcript (α : Type) where
  output : List String
  complaints : List String
  calls : List Call
  result : Except Error α

/-- Runs a session in a world. -/
def Session.replay {α : Type} (world : World) : Session α → Transcript α
  | .done result => { output := [], complaints := [], calls := [], result }
  | .print line next =>
    let t := next.replay world
    { t with output := line :: t.output }
  | .warn line next =>
    let t := next.replay world
    { t with complaints := line :: t.complaints }
  | .read path next => (next (world.file path)).replay world
  | .call c next =>
    let t := (next (world.reply c)).replay world
    { t with calls := c :: t.calls }

end SearchSql
