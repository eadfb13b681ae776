import Sumidero.Data.Runs

namespace Sumidero.Data

/-! Programs that ask an environment for one operation after another, and what can be said
of them when the process may die between any two operations.  A program is a tree: the
operation it performs next, and how it goes on with each reply. -/

inductive Program {Op : Type} (Reply : Op → Type) (Result : Type) where
  | done (result : Result)
  | perform (op : Op) (next : Reply op → Program Reply Result)

namespace Program

section Monad

variable {Op : Type} {Reply : Op → Type} {A B : Type}

protected def bind : Program Reply A → (A → Program Reply B) → Program Reply B
  | done result, rest => rest result
  | perform op next, rest => perform op fun reply => (next reply).bind rest

instance : Monad (Program Reply) where
  pure := done
  bind := Program.bind

/-- Perform one operation and return its reply. -/
def call (op : Op) : Program Reply (Reply op) := perform op done

@[simp] theorem pure_eq (result : A) : (pure result : Program Reply A) = done result := rfl

@[simp] theorem done_bind (result : A) (rest : A → Program Reply B) :
    (done result : Program Reply A) >>= rest = rest result := rfl

@[simp] theorem perform_bind (op : Op) (next : Reply op → Program Reply A)
    (rest : A → Program Reply B) :
    perform op next >>= rest = perform op fun reply => next reply >>= rest := rfl

@[simp] theorem call_bind (op : Op) (rest : Reply op → Program Reply B) :
    call op >>= rest = perform op rest := rfl

end Monad

/-! ### Pre- and postconditions -/

variable {Op : Type} {Reply : Op → Type} {World A B : Type}

/-- What is asked of the world between two operations, of each operation performed, and
which replies are considered. -/
structure Duty (World : Type) {Op : Type} (Reply : Op → Type) where
  alive : World → Prop
  safe : World → Op → Prop
  admits : World → (op : Op) → Reply op → Prop

/-- Nothing is asked, of the replies considered. -/
def Duty.considering (admits : World → (op : Op) → Reply op → Prop) : Duty World Reply where
  alive := fun _ => True
  safe := fun _ _ => True
  admits

/-- From this world on the program meets its duty, and ends as `post` says if it ends.
`effect` is the world after a reply; a reply without one is not possible there. -/
def Ensures (effect : World → (op : Op) → Reply op → Option World) (duty : Duty World Reply)
    (post : World → A → Prop) : Program Reply A → World → Prop
  | done result, world => post world result
  | perform op next, world =>
      duty.alive world ∧ duty.safe world op ∧
        ∀ reply after, effect world op reply = some after → duty.admits world op reply →
          Ensures effect duty post (next reply) after

/-- Every operation the program may perform is of this kind. -/
def All (ok : Op → Prop) : Program Reply A → Prop
  | done _ => True
  | perform op next => ok op ∧ ∀ reply, All ok (next reply)

/-- Every result the program may return is of this kind. -/
def Yields (kind : A → Prop) : Program Reply A → Prop
  | done result => kind result
  | perform _ next => ∀ reply, Yields kind (next reply)

/-- With such replies the program runs from one world to another and returns a result. -/
inductive Returns (effect : World → (op : Op) → Reply op → Option World)
    (admits : World → (op : Op) → Reply op → Prop) :
    World → Program Reply A → World → A → Prop where
  | done (world : World) (result : A) : Returns effect admits world (.done result) world result
  | perform {world middle after : World} {op : Op} {next : Reply op → Program Reply A} {result : A}
      (reply : Reply op) (effected : effect world op reply = some middle)
      (admitted : admits world op reply)
      (later : Returns effect admits middle (next reply) after result) :
      Returns effect admits world (.perform op next) after result

variable {effect : World → (op : Op) → Reply op → Option World} {duty : Duty World Reply}

theorem ensures_bind {post : World → B → Prop} {program : Program Reply A}
    {rest : A → Program Reply B} {world : World}
    (first : Ensures effect duty (fun middle result => Ensures effect duty post (rest result) middle)
      program world) : Ensures effect duty post (program >>= rest) world := by
  induction program generalizing world with
  | done result => exact first
  | perform op next ih =>
      obtain ⟨alive, safe, later⟩ := first
      refine ⟨alive, safe, ?_⟩
      intro reply after effected admitted
      exact ih reply (later reply after effected admitted)

theorem ensures_mono {post weaker : World → A → Prop} {program : Program Reply A} {world : World}
    (implies : ∀ after result, post after result → weaker after result)
    (ensured : Ensures effect duty post program world) :
    Ensures effect duty weaker program world := by
  induction program generalizing world with
  | done result => exact implies world result ensured
  | perform op next ih =>
      obtain ⟨alive, safe, later⟩ := ensured
      refine ⟨alive, safe, ?_⟩
      intro reply after effected admitted
      exact ih reply (later reply after effected admitted)

theorem yields_bind {kind : B → Prop} {program : Program Reply A} {rest : A → Program Reply B}
    (later : ∀ result, Yields kind (rest result)) : Yields kind (program >>= rest) := by
  induction program with
  | done result => exact later result
  | perform op next ih => exact fun reply => ih reply

theorem yields_mono {kind weaker : A → Prop} {program : Program Reply A}
    (implies : ∀ result, kind result → weaker result) (yields : Yields kind program) :
    Yields weaker program := by
  induction program with
  | done result => exact implies result yields
  | perform op next ih => exact fun reply => ih reply (yields reply)

/-- What follows a program may rely on what the program returns. -/
theorem yields_bind_of {kind : A → Prop} {last : B → Prop} {program : Program Reply A}
    {rest : A → Program Reply B} (first : Yields kind program)
    (later : ∀ result, kind result → Yields last (rest result)) :
    Yields last (program >>= rest) := by
  induction program with
  | done result => exact later result first
  | perform op next ih => exact fun reply => ih reply (first reply)

theorem ensures_both {post other : World → A → Prop} {program : Program Reply A} {world : World}
    (ensured : Ensures effect duty post program world)
    (also : Ensures effect duty other program world) :
    Ensures effect duty (fun after result => post after result ∧ other after result) program
      world := by
  induction program generalizing world with
  | done result => exact ⟨ensured, also⟩
  | perform op next ih =>
      obtain ⟨alive, safe, later⟩ := ensured
      refine ⟨alive, safe, ?_⟩
      intro reply after effected admitted
      exact ih reply (later reply after effected admitted) (also.2.2 reply after effected admitted)

theorem all_bind {ok : Op → Prop} {program : Program Reply A} {rest : A → Program Reply B}
    (first : All ok program) (later : ∀ result, All ok (rest result)) :
    All ok (program >>= rest) := by
  induction program with
  | done result => exact later result
  | perform op next ih => exact ⟨first.1, fun reply => ih reply (first.2 reply)⟩

theorem ensures_yields {post : World → A → Prop} {kind : A → Prop} {program : Program Reply A}
    {world : World} (ensured : Ensures effect duty post program world)
    (yields : Yields kind program) :
    Ensures effect duty (fun after result => post after result ∧ kind result) program world := by
  induction program generalizing world with
  | done result => exact ⟨ensured, yields⟩
  | perform op next ih =>
      obtain ⟨alive, safe, later⟩ := ensured
      refine ⟨alive, safe, ?_⟩
      intro reply after effected admitted
      exact ih reply (later reply after effected admitted) (yields reply)

/-- What operations of one kind keep, a program made of them keeps. -/
theorem ensures_of_all {invariant : World → Prop} {ok : Op → Prop}
    (alive : ∀ world, invariant world → duty.alive world)
    (safe : ∀ world op, invariant world → ok op → duty.safe world op)
    (kept : ∀ world op reply after, invariant world → ok op →
      effect world op reply = some after → invariant after)
    {program : Program Reply A} (all : All ok program) {world : World} (holds : invariant world) :
    Ensures effect duty (fun after _ => invariant after) program world := by
  induction program generalizing world with
  | done result => exact holds
  | perform op next ih =>
      refine ⟨alive world holds, safe world op holds all.1, ?_⟩
      intro reply after effected _
      exact ih reply (all.2 reply) (kept world op reply after holds all.1 effected)

theorem post_of_returns {post : World → A → Prop} {program : Program Reply A} {world after : World}
    {result : A} (ensured : Ensures effect duty post program world)
    (returns : Returns effect duty.admits world program after result) : post after result := by
  induction returns with
  | done world result => exact ensured
  | perform reply effected admitted later ih => exact ih (ensured.2.2 reply _ effected admitted)

theorem kind_of_returns {admits : World → (op : Op) → Reply op → Prop} {kind : A → Prop}
    {program : Program Reply A} {world after : World} {result : A} (yields : Yields kind program)
    (returns : Returns effect admits world program after result) : kind result := by
  induction returns with
  | done world result => exact yields
  | perform reply effected admitted later ih => exact ih (yields reply)

theorem returns_bind {admits : World → (op : Op) → Reply op → Prop} {program : Program Reply A}
    {rest : A → Program Reply B} {world middle after : World} {value : A} {result : B}
    (first : Returns effect admits world program middle value)
    (later : Returns effect admits middle (rest value) after result) :
    Returns effect admits world (program >>= rest) after result := by
  induction first with
  | done world value => exact later
  | perform reply effected admitted _ ih => exact .perform reply effected admitted (ih later)

/-- Where every operation has a reply to go on with, a program returns. -/
theorem returns_some {admits : World → (op : Op) → Reply op → Prop}
    (replies : ∀ world op, ∃ reply after, effect world op reply = some after ∧
      admits world op reply)
    (program : Program Reply A) (world : World) :
    ∃ after result, Returns effect admits world program after result := by
  induction program generalizing world with
  | done result => exact ⟨world, result, .done world result⟩
  | perform op next ih =>
      obtain ⟨reply, middle, effected, admitted⟩ := replies world op
      obtain ⟨after, result, later⟩ := ih reply middle
      exact ⟨after, result, .perform reply effected admitted later⟩

/-- The run in which every operation gets the answer its world gives. -/
def attend (effect : World → (op : Op) → Reply op → Option World)
    (answer : World → ∀ op, Reply op) : World → Program Reply A → Option (World × A)
  | world, .done result => some (world, result)
  | world, .perform op next =>
      match effect world op (answer world op) with
      | some middle => attend effect answer middle (next (answer world op))
      | none => none

theorem returns_of_attend {admits : World → (op : Op) → Reply op → Prop}
    {answer : World → ∀ op, Reply op} (admitted : ∀ world op, admits world op (answer world op))
    {program : Program Reply A} {world after : World} {result : A}
    (attended : attend effect answer world program = some (after, result)) :
    Returns effect admits world program after result := by
  induction program generalizing world with
  | done value =>
      simp only [attend, Option.some.injEq, Prod.mk.injEq] at attended
      obtain ⟨rfl, rfl⟩ := attended
      exact .done _ _
  | perform op next ih =>
      rw [attend] at attended
      cases effected : effect world op (answer world op) with
      | none =>
          rw [effected] at attended
          cases attended
      | some middle =>
          rw [effected] at attended
          exact .perform _ effected (admitted world op) (ih _ attended)

/-! ### Programs started over and over, and killed -/

/-- A world and the program that runs in it, if any. -/
structure Process (World : Type) {Op : Type} (Reply : Op → Type) (Result : Type) where
  world : World
  running : Option (Program Reply Result)

inductive Happening (Input : Type) {Op : Type} (Reply : Op → Type) where
  | start (input : Input)
  | reply (answers : ∀ op, Reply op)
  | crash

/-- A program that is done is no longer running. -/
def resume : Program Reply A → Option (Program Reply A)
  | done _ => none
  | perform op next => some (perform op next)

def step {Input : Type} (effect : World → (op : Op) → Reply op → Option World)
    (code : Input → Program Reply A) (process : Process World Reply A) :
    Happening Input Reply → Option (Process World Reply A)
  | .start input =>
      match process.running with
      | none => some { process with running := resume (code input) }
      | some _ => none
  | .reply answers =>
      match process.running with
      | some (.perform op next) =>
          (effect process.world op (answers op)).map fun after =>
            { world := after, running := resume (next (answers op)) }
      | _ => none
  | .crash => some { process with running := none }

/-- Programs are started and replied to as considered, and the process dies only where it
may. -/
def Attended {Input : Type} (admits : World → (op : Op) → Reply op → Prop)
    (mayStart : World → Input → Prop) (mayDie : World → Prop) (before : Process World Reply A) :
    Happening Input Reply → Process World Reply A → Prop
  | .start input, _ => mayStart before.world input
  | .reply answers, _ => ∀ op next, before.running = some (.perform op next) →
      admits before.world op (answers op)
  | .crash, _ => mayDie before.world

theorem attended_reply {Input : Type} {admits : World → (op : Op) → Reply op → Prop}
    {mayStart : World → Input → Prop} {mayDie : World → Prop} {before after : Process World Reply A}
    {op : Op} {next : Reply op → Program Reply A} {answers : ∀ op, Reply op}
    (running : before.running = some (.perform op next))
    (admitted : admits before.world op (answers op)) :
    Attended admits mayStart mayDie before (.reply answers) after := by
  intro other later same
  rw [running] at same
  cases same
  exact admitted

/-- Idle in a world where `rest` holds, or on the way to a result and a world as `post`
says. -/
def Kept (effect : World → (op : Op) → Reply op → Option World) (duty : Duty World Reply)
    (rest : World → Prop) (post : World → A → Prop) (process : Process World Reply A) : Prop :=
  match process.running with
  | none => rest process.world
  | some program => Ensures effect duty post program process.world

section Kept

variable {rest mayDie : World → Prop} {post : World → A → Prop}

theorem kept_resume {program : Program Reply A} {world : World}
    (settles : ∀ world result, post world result → rest world)
    (ensured : Ensures effect duty post program world) :
    Kept effect duty rest post { world, running := resume program } := by
  cases program with
  | done result => exact settles world result ensured
  | perform op next => exact ensured

theorem kept_step {Input : Type} {code : Input → Program Reply A}
    {mayStart : World → Input → Prop}
    (each : ∀ input world, rest world → mayStart world input →
      Ensures effect duty post (code input) world)
    (settles : ∀ world result, post world result → rest world)
    (dies : ∀ world, duty.alive world → mayDie world → rest world)
    {before after : Process World Reply A} {event : Happening Input Reply}
    (kept : Kept effect duty rest post before)
    (stepped : step effect code before event = some after)
    (attended : Attended duty.admits mayStart mayDie before event after) :
    Kept effect duty rest post after := by
  obtain ⟨world, running⟩ := before
  cases event with
  | start input =>
      cases running with
      | none =>
          cases stepped
          exact kept_resume settles (each input world kept attended)
      | some program => cases stepped
  | reply answers =>
      cases running with
      | none => cases stepped
      | some program =>
          cases program with
          | done result => cases stepped
          | perform op next =>
              obtain ⟨middle, effected, same⟩ := Option.map_eq_some_iff.mp stepped
              rw [← same]
              exact kept_resume settles
                (kept.2.2 (answers op) middle effected (attended op next rfl))
  | crash =>
      cases stepped
      cases running with
      | none => exact kept
      | some program =>
          cases program with
          | done result => exact settles world result kept
          | perform op next => exact dies world kept.1 attended

/-- In a kept process the world is at rest, or alive between two operations. -/
theorem Kept.world {process : Process World Reply A}
    (settles : ∀ world result, post world result → rest world)
    (kept : Kept effect duty rest post process) :
    rest process.world ∨ duty.alive process.world := by
  obtain ⟨world, running⟩ := process
  cases running with
  | none => exact .inl kept
  | some program =>
      cases program with
      | done result => exact .inl (settles world result kept)
      | perform op next => exact .inr kept.1

theorem Kept.safe {process : Process World Reply A} (kept : Kept effect duty rest post process)
    {op : Op} {next : Reply op → Program Reply A}
    (running : process.running = some (.perform op next)) : duty.safe process.world op := by
  simp only [Kept] at kept
  rw [running] at kept
  exact kept.2.1

theorem Kept.returned {process : Process World Reply A} {after : World}
    (kept : Kept effect duty rest post process) {op : Op} {next : Reply op → Program Reply A}
    {reply : Reply op} {result : A} (running : process.running = some (.perform op next))
    (effected : effect process.world op reply = some after)
    (admitted : duty.admits process.world op reply) (last : next reply = .done result) :
    post after result := by
  simp only [Kept] at kept
  rw [running] at kept
  have ensured := kept.2.2 reply after effected admitted
  rw [last] at ensured
  exact ensured

end Kept

/-- Programs that are started over and over, get any reply and are killed anywhere, visit
only worlds that are at rest, where every world between two operations is. -/
theorem visits_rest {Input : Type} {code : Input → Program Reply A} {rest : World → Prop}
    {post : World → A → Prop}
    (each : ∀ input world, rest world → Ensures effect duty post (code input) world)
    (settles : ∀ world result, post world result → rest world)
    (dies : ∀ world, duty.alive world → rest world)
    (anything : ∀ world op reply, duty.admits world op reply) {world : World}
    (initial : rest world) (events : List (Happening Input Reply)) :
    Visits (step effect code) (fun process => rest process.world) { world, running := none }
      events := by
  have preserved : ∀ before event after, Kept effect duty rest post before →
      step effect code before event = some after → Kept effect duty rest post after := by
    intro before event after kept stepped
    have attended : Attended duty.admits (fun _ _ => True) (fun _ => True) before event after := by
      cases event with
      | start input => trivial
      | reply answers => exact fun op _ _ => anything _ op _
      | crash => trivial
    exact kept_step (fun input world resting _ => each input world resting) settles
      (fun world alive _ => dies world alive) kept stepped attended
  have idle : Kept effect duty rest post { world, running := none } := initial
  intro front back final _ ran
  have kept : Kept effect duty rest post final := invariant_of_run preserved idle ran
  exact (kept.world settles).elim id (dies final.world)

theorem reply_step {Input : Type} {code : Input → Program Reply A}
    {before after : Process World Reply A} {answers : ∀ op, Reply op}
    (stepped : step effect code before (.reply answers) = some after) :
    ∃ op next, before.running = some (.perform op next) ∧
      effect before.world op (answers op) = some after.world := by
  simp only [step] at stepped
  split at stepped
  · rename_i op next running
    obtain ⟨middle, effected, same⟩ := Option.map_eq_some_iff.mp stepped
    rw [← same]
    exact ⟨op, next, running, effected⟩
  · cases stepped

end Program

end Sumidero.Data
