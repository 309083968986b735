import SearchSql.CommandLine.Run

/-!
Transcripts of sessions. What a sequence of sessions leaves behind is what its parts leave behind,
one after the other, up to the first failure.
-/

namespace SearchSql

variable {α β : Type} {world : World}

namespace Transcript

/-- A transcript of nothing but a result. -/
def quiet (result : Except Error α) : Transcript α :=
  { output := [], complaints := [], calls := [], result }

/-- A transcript that goes on with another one. -/
def before (t : Transcript α) (u : Transcript β) : Transcript β :=
  { output := t.output ++ u.output, complaints := t.complaints ++ u.complaints
    calls := t.calls ++ u.calls, result := u.result }

@[simp] theorem quiet_result (result : Except Error α) : (quiet result).result = result := rfl

@[simp] theorem quiet_before (result : Except Error α) (u : Transcript β) :
    (quiet result).before u = u := rfl

end Transcript

open Transcript

/-- The answer to a call, if it is one of success in JSON. -/
def World.answer (world : World) (c : Call) : Except Error Json :=
  Server.readReply c.url (world.reply c)

def World.answers (world : World) (c : Call) : Bool := (world.answer c).isOk

namespace Session

theorem replay_andThen (s : Session α) (f : Except Error α → Session β) :
    (s.andThen f).replay world =
      (s.replay world).before ((f (s.replay world).result).replay world) := by
  induction s with
  | done result => rfl
  | print line next ih | warn line next ih =>
    simp only [andThen, replay, ih]
    rfl
  | read path next ih => exact ih _
  | call c next ih =>
    simp only [andThen, replay, ih]
    rfl

theorem replay_bind (s : Session α) (f : α → Session β) :
    (s >>= f).replay world = match (s.replay world).result with
      | .ok a => (s.replay world).before ((f a).replay world)
      | .error err => (s.replay world).before (quiet (.error err)) := by
  change (s.bind f).replay world = _
  induction s with
  | done result => cases result <;> rfl
  | print line next ih | warn line next ih =>
    simp only [Session.bind, replay, ih]
    split <;> rfl
  | read path next ih => exact ih _
  | call c next ih =>
    simp only [Session.bind, replay, ih]
    split <;> rfl

@[simp] theorem replay_pure (a : α) : (pure a : Session α).replay world = quiet (.ok a) := rfl

@[simp] theorem replay_ofExcept (result : Except Error α) :
    (ofExcept result).replay world = quiet result := rfl

@[simp] theorem replay_file (path : String) :
    (file path).replay world = quiet (.ok (world.file path)) := rfl

@[simp] theorem replay_say (line : String) : (say line).replay world =
    { output := [line], complaints := [], calls := [], result := .ok () } := rfl

@[simp] theorem replay_complain (line : String) : (complain line).replay world =
    { output := [], complaints := [line], calls := [], result := .ok () } := rfl

@[simp] theorem replay_sayAll (lines : List String) : (sayAll lines).replay world =
    { output := lines, complaints := [], calls := [], result := .ok () } := by
  induction lines with
  | nil => rfl
  | cons line lines ih => simp only [sayAll, replay, ih]

@[simp] theorem replay_complainAll (lines : List String) : (complainAll lines).replay world =
    { output := [], complaints := lines, calls := [], result := .ok () } := by
  induction lines with
  | nil => rfl
  | cons line lines ih => simp only [complainAll, replay, ih]

/-- The session prints nothing and makes no call. -/
def Quiet (world : World) (s : Session α) : Prop := ∃ result, s.replay world = quiet result

theorem Quiet.replay_eq {s : Session α} (h : s.Quiet world) :
    s.replay world = quiet (s.replay world).result := by
  obtain ⟨result, h⟩ := h
  rw [h]
  rfl

theorem Quiet.bind {s : Session α} {f : α → Session β} (hs : s.Quiet world)
    (hf : ∀ a, (f a).Quiet world) : (s >>= f).Quiet world := by
  obtain ⟨result, hs⟩ := hs
  rw [Quiet, replay_bind, hs]
  cases result with
  | error err => exact ⟨.error err, rfl⟩
  | ok a => exact hf a

end Session

namespace Server

theorem replay_send (c : Call) : (send c).replay world =
    { output := [], complaints := [], calls := [c], result := world.answer c } := rfl

theorem replay_fetchMapping (world : World) (base index : String) :
    (fetchMapping base index).replay world =
    { output := [], complaints := [], calls := [.get (mappingUrl base index)]
      result := (world.answer (.get (mappingUrl base index))).map Schema.ofMapping } := by
  rw [fetchMapping, Session.replay_bind, replay_send]
  dsimp only
  cases world.answer (.get (mappingUrl base index)) <;> rfl

theorem replay_search (base : String) (r : Request) : (search base r).replay world =
    { output := [], complaints := [], calls := [.post (searchUrl base r) r.body]
      result := world.answer (.post (searchUrl base r) r.body) >>= Response.ofBody } := by
  rw [search, Session.replay_bind, replay_send]
  dsimp only
  cases world.answer (.post (searchUrl base r) r.body) <;> rfl

end Server

namespace CommandLine

open Session

theorem quiet_searchConfig (paths : List String) : (searchConfig paths).Quiet world := by
  induction paths with
  | nil => exact ⟨_, rfl⟩
  | cons path paths ih =>
    refine .bind ⟨_, rfl⟩ fun state => .bind ⟨_, rfl⟩ fun config => ?_
    cases config with
    | none => exact ih
    | some config => exact ⟨_, rfl⟩

theorem quiet_namedConfig (path : String) : (namedConfig path).Quiet world := by
  refine .bind ⟨_, rfl⟩ fun state => .bind ⟨_, rfl⟩ fun config => ?_
  cases config <;> exact ⟨_, rfl⟩

/-- Looking for the configuration leaves nothing behind. -/
theorem quiet_loadConfig (world : World) (around : Surroundings) (flags : Flags) :
    (loadConfig around flags).Quiet world := by
  unfold loadConfig
  cases flags.config with
  | none =>
    refine (quiet_searchConfig _).bind fun config => ?_
    cases flags.url.or around.url <;> exact ⟨_, rfl⟩
  | some path =>
    refine (quiet_namedConfig path).bind fun config => ?_
    cases flags.url.or around.url <;> exact ⟨_, rfl⟩

end CommandLine

end SearchSql
