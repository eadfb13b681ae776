import Mathlib.Logic.Function.Basic
import Sumidero.Data.Programs
import Sumidero.Lists.Response

namespace Sumidero.Lists

open Text Data

/-! The files of the list directory and the list hosts, as the loader uses them.  Any file
operation may fail, and the loader may be killed between any two of them. -/

/-! ### Paths -/

/-- `Path::join`. -/
def joinPath (dir file : Str) : Str :=
  if file.head? = some '/' ∨ dir = [] then file
  else if dir.getLast? = some '/' then dir ++ file
  else dir ++ '/' :: file

/-- `Path::with_extension`, of a path that ends in a file name: what follows the last dot of
the name is replaced, unless the name begins with that dot. -/
def withExtension (path ext : Str) : Str :=
  let name := (afterLast '/' path).getD path
  let stem := match afterLast '.' name with
    | some old =>
        let front := name.take (name.length - old.length - 1)
        if front.isEmpty then name else front
    | none => name
  path.take (path.length - name.length) ++ stem ++ '.' :: ext

def storedPath (listDir name : Str) : Str := joinPath listDir (name ++ ".txt".toList)

def etagPath (listDir name : Str) : Str := joinPath listDir (name ++ ".etag".toList)

theorem getLast_joinPath (dir : Str) {file : Str} (last : file ≠ []) :
    (joinPath dir file).getLast? = file.getLast? := by
  simp only [joinPath]
  split
  · rfl
  · split
    · rw [List.getLast?_append_of_ne_nil _ last]
    · rw [List.getLast?_append_of_ne_nil _ (List.cons_ne_nil _ _), List.getLast?_cons]
      cases found : file.getLast? with
      | none => exact absurd (List.getLast?_eq_none_iff.mp found) last
      | some c => rfl

theorem storedPath_last (listDir name : Str) : (storedPath listDir name).getLast? = some 't' := by
  rw [storedPath, getLast_joinPath _ (by simp)]
  simp

theorem etagPath_last (listDir name : Str) : (etagPath listDir name).getLast? = some 'g' := by
  rw [etagPath, getLast_joinPath _ (by simp)]
  simp

theorem tmpPath_last (path : Str) : (withExtension path "tmp".toList).getLast? = some 'p' := by
  simp [withExtension]

/-! ### Operations -/

/-- Why a write failed, and what it left of the file. -/
structure WriteFailure where
  reason : String
  left : Option (List UInt8)
deriving Repr, DecidableEq

inductive Op where
  | isFile (path : Str)
  | readToString (path : Str)
  | send (url : Str) (ifNoneMatch : Option Str)
  | touch (path : Str)
  | ageOf (path : Str)
  | write (path : Str) (bytes : List UInt8)
  | rename (source target : Str)
  | remove (path : Str)

abbrev Reply : Op → Type
  | .isFile _ => Bool
  | .readToString _ => Except String Str
  | .send _ _ => Except String Response
  | .touch _ => Except String Unit
  | .ageOf _ => Option Nat
  | .write _ _ => Except WriteFailure Unit
  | .rename _ _ => Except String Unit
  | .remove _ => Except String Unit

/-- A path that was renamed to or removed, and the URL last asked by then. -/
structure Change where
  path : Str
  url : Option Str
deriving Repr, DecidableEq

/-- The files by their paths and, as history, what was asked last, every response, and
every path that was renamed to or removed, each newest first. -/
structure World where
  disk : Str → Option (List UInt8)
  asked : Option (Str × Option Str)
  served : List (Str × Response)
  changes : List Change

namespace World

def put (world : World) (path : Str) (content : Option (List UInt8)) : World :=
  { world with disk := Function.update world.disk path content }

def change (world : World) (path : Str) (content : Option (List UInt8)) : World :=
  { world.put path content with
    changes := { path, url := world.asked.map Prod.fst } :: world.changes }

def ask (world : World) (url : Str) (ifNoneMatch : Option Str) : World :=
  { world with asked := some (url, ifNoneMatch) }

def serve (world : World) (url : Str) (response : Response) : World :=
  { world with served := (url, response) :: world.served }

end World

/-- The world after a reply, if the reply is possible there. -/
def effect (world : World) : (op : Op) → Reply op → Option World
  | .isFile path, found => if found && (world.disk path).isNone then none else some world
  | .readToString path, .ok text =>
      if world.disk path = some (asBytes text) then some world else none
  | .readToString _, .error _ => some world
  | .send url ifNoneMatch, .ok response =>
      some ((world.ask url ifNoneMatch).serve url response)
  | .send url ifNoneMatch, .error _ => some (world.ask url ifNoneMatch)
  | .touch _, _ => some world
  | .ageOf _, _ => some world
  | .write path bytes, .ok () => some (world.put path (some bytes))
  | .write path _, .error failure => some (world.put path failure.left)
  | .rename source target, .ok () =>
      match world.disk source with
      | some bytes => some ((world.put source none).change target (some bytes))
      | none => none
  | .rename _ _, .error _ => some world
  | .remove path, .ok () =>
      if (world.disk path).isSome then some (world.change path none) else none
  | .remove _, .error _ => some world

/-- The paths whose files an operation may change. -/
def Op.changes : Op → List Str
  | .write path _ => [path]
  | .rename source target => [source, target]
  | .remove path => [path]
  | _ => []

/-- An operation that only looks at files. -/
def Looks : Op → Prop
  | .isFile _ | .readToString _ | .touch _ | .ageOf _ => True
  | _ => False

section Effects

variable {world after : World} {op : Op} {reply : Reply op}

@[simp] theorem World.put_self (path : Str) (content : Option (List UInt8)) :
    (world.put path content).disk path = content := Function.update_self ..

@[simp] theorem World.change_self (path : Str) (content : Option (List UInt8)) :
    (world.change path content).disk path = content := Function.update_self ..

theorem World.put_other {path other : Str} (different : other ≠ path)
    (content : Option (List UInt8)) : (world.put path content).disk other = world.disk other :=
  Function.update_of_ne different ..

theorem World.change_other {path other : Str} (different : other ≠ path)
    (content : Option (List UInt8)) :
    (world.change path content).disk other = world.disk other :=
  Function.update_of_ne different ..

theorem effect_isFile {path : Str} {found : Bool}
    (effected : effect world (.isFile path) found = some after) :
    after = world ∧ (found = true → (world.disk path).isSome = true) := by
  simp only [effect] at effected
  split at effected
  · cases effected
  · next possible =>
    refine ⟨(Option.some.inj effected).symm, ?_⟩
    intro seen
    cases held : world.disk path with
    | some bytes => rfl
    | none => simp [seen, held] at possible

theorem effect_read {path text : Str}
    (effected : effect world (.readToString path) (.ok text) = some after) :
    after = world ∧ world.disk path = some (asBytes text) := by
  simp only [effect] at effected
  split at effected
  · next held => exact ⟨(Option.some.inj effected).symm, held⟩
  · cases effected

theorem effect_renamed {source target : Str}
    (effected : effect world (.rename source target) (.ok ()) = some after) :
    ∃ bytes, world.disk source = some bytes ∧
      after = (world.put source none).change target (some bytes) := by
  simp only [effect] at effected
  split at effected
  · next bytes held => exact ⟨bytes, held, (Option.some.inj effected).symm⟩
  · cases effected

theorem effect_removed {path : Str} (effected : effect world (.remove path) (.ok ()) = some after) :
    after = world.change path none := by
  simp only [effect] at effected
  split at effected
  · exact (Option.some.inj effected).symm
  · cases effected

/-- An operation leaves every file alone but those it may change. -/
theorem effect_frame (effected : effect world op reply = some after) {path : Str}
    (other : path ∉ op.changes) : after.disk path = world.disk path := by
  cases op with
  | isFile file => rw [(effect_isFile effected).1]
  | readToString file =>
      cases reply with
      | error err =>
          cases effected
          rfl
      | ok text => rw [(effect_read effected).1]
  | send url ifNoneMatch =>
      cases reply <;> cases effected <;> rfl
  | touch file =>
      cases effected
      rfl
  | ageOf file =>
      cases effected
      rfl
  | write file bytes =>
      have different : path ≠ file := by simpa [Op.changes] using other
      cases reply <;> cases effected <;> exact World.put_other different _
  | rename source target =>
      have different : path ≠ source ∧ path ≠ target := by simpa [Op.changes] using other
      cases reply with
      | error err =>
          cases effected
          rfl
      | ok done =>
          obtain ⟨bytes, _, rfl⟩ := effect_renamed effected
          rw [World.change_other different.2, World.put_other different.1]
  | remove file =>
      have different : path ≠ file := by simpa [Op.changes] using other
      cases reply with
      | error err =>
          cases effected
          rfl
      | ok done =>
          rw [effect_removed effected]
          exact World.change_other different _

theorem same_of_looks (looks : Looks op) (effected : effect world op reply = some after) :
    after = world := by
  cases op with
  | isFile path => exact (effect_isFile effected).1
  | readToString path =>
      cases reply with
      | error err => exact (Option.some.inj effected).symm
      | ok text => exact (effect_read effected).1
  | touch path => exact (Option.some.inj effected).symm
  | ageOf path => exact (Option.some.inj effected).symm
  | _ => cases looks

theorem effect_served (effected : effect world op reply = some after) :
    world.served ⊆ after.served := by
  cases op with
  | send url ifNoneMatch =>
      cases reply with
      | error err =>
          cases effected
          exact List.Subset.refl _
      | ok response =>
          cases effected
          exact List.subset_cons_self _ _
  | _ =>
      simp only [effect] at effected
      repeat' split at effected
      all_goals first
        | contradiction
        | (cases effected; exact List.Subset.refl _)

end Effects

end Sumidero.Lists
