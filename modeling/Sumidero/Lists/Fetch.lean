import Sumidero.Daemon.Report
import Sumidero.Lists.Disk

namespace Sumidero.Lists

open Text Data Program
open Daemon (ListOrigin)

/-! Acquiring one list: the stored copy, the conditional download, and what a failure falls
back to. -/

abbrev Load (Result : Type) : Type := Program Reply Result

inductive ListError where
  | Unavailable (name url : Str) (reason : String)
  | Read (name path : Str) (source : String)
  | NoSource (name : Str)
deriving Repr, DecidableEq

structure Acquired where
  text : Str
  origin : ListOrigin
  verifiedAgeSecs : Option Nat
deriving Repr, DecidableEq

def isFile (path : Str) : Load Bool := call (Op.isFile path)
def readToString (path : Str) : Load (Except String Str) := call (Op.readToString path)
def send (url : Str) (ifNoneMatch : Option Str) : Load (Except String Response) :=
  call (Op.send url ifNoneMatch)
def touch (path : Str) : Load (Except String Unit) := call (Op.touch path)
def ageOf (path : Str) : Load (Option Nat) := call (Op.ageOf path)
def write (path : Str) (bytes : List UInt8) : Load (Except WriteFailure Unit) :=
  call (Op.write path bytes)
def rename (source target : Str) : Load (Except String Unit) := call (Op.rename source target)
def remove (path : Str) : Load (Except String Unit) := call (Op.remove path)

/-- Write a temporary file, then rename it. -/
def writeAtomic (path : Str) (bytes : List UInt8) : Load (Except String Unit) := do
  let tmp := withExtension path "tmp".toList
  match ← write tmp bytes with
  | .error failure => return .error failure.reason
  | .ok () => rename tmp path

/-- The `If-None-Match` of a request: an ETag is only meaningful while its body is on disk. -/
def storedEtag (storedPath etagPath : Str) : Load (Option Str) := do
  if ← isFile storedPath then
    match ← readToString etagPath with
    | .ok etag => return if (trim etag).isEmpty then none else some (trim etag)
    | .error _ => return none
  else return none

/-- Replace the stored copy, then its ETag; an ETag that cannot be replaced goes. -/
def persist (storedPath etagPath text : Str) (etag : Option Str) : Load Unit := do
  match ← writeAtomic storedPath (asBytes text) with
  | .ok () =>
      match etag with
      | some etag =>
          match ← writeAtomic etagPath (asBytes etag) with
          | .ok () => return ()
          | .error _ =>
              let _ ← remove etagPath
              return ()
      | none =>
          let _ ← remove etagPath
          return ()
  | .error _ =>
      let _ ← remove etagPath
      return ()

/-- A 304: the stored copy, marked as verified now. -/
def confirm (storedPath : Str) : Load (Except String Acquired) := do
  match ← readToString storedPath with
  | .error err => return .error ("304 but the stored copy is unreadable: " ++ err)
  | .ok text =>
      let _ ← touch storedPath
      return .ok { text, origin := .notModified, verifiedAgeSecs := some 0 }

/-- Any other answer: a body that holds rules is stored. -/
def download (storedPath etagPath : Str) (response : Response) :
    Load (Except String Acquired) :=
  match response.body with
  | .error reason => return .error reason
  | .ok body =>
      let text := decodeBody body
      let counts := countRules text
      if counts.rules = 0 then
        return .error ("body holds no rules (" ++ toString counts.issues ++
          " rejected lines): refusing to store it")
      else do
        persist storedPath etagPath text response.etag
        return .ok { text, origin := .downloaded, verifiedAgeSecs := some 0 }

/-- `GET` with `If-None-Match`; an error leaves the stored copy alone. -/
def fetchWithEtag (url storedPath etagPath : Str) : Load (Except String Acquired) := do
  let ifNoneMatch ← storedEtag storedPath etagPath
  match ← send url ifNoneMatch with
  | .error reason => return .error reason
  | .ok response =>
      if response.status = 304 then confirm storedPath
      else download storedPath etagPath response

/-- A list read from a file. -/
def readList (name path : Str) (origin : ListOrigin) (verifiedAgeSecs : Option Nat) :
    Load (Except ListError Acquired) := do
  match ← readToString path with
  | .error err => return .error (.Read name path err)
  | .ok text => return .ok { text, origin, verifiedAgeSecs }

/-- The seed of a list, if its file is there. -/
def seedOf (source : Config.ListSource) : Load (Option Str) := do
  match source.path with
  | some path =>
      if ← isFile path then return some path
      else return none
  | none => return none

/-- A stored copy with the time since it was verified. -/
def readStored (name path : Str) (origin : ListOrigin) : Load (Except ListError Acquired) := do
  match ← readToString path with
  | .error err => return .error (.Read name path err)
  | .ok text => return .ok { text, origin, verifiedAgeSecs := ← ageOf path }

/-- What a failed fetch falls back to: the stored copy, then the seed. -/
def fallBack (source : Config.ListSource) (url storedPath : Str) (seed : Option Str)
    (reason : String) : Load (Except ListError Acquired) := do
  if ← isFile storedPath then
    readStored source.name storedPath (.storedAfterFetchFailure reason)
  else
    match seed with
    | some seed => readList source.name seed (.seedAfterFetchFailure reason) none
    | none => return .error (.Unavailable source.name url reason)

/-- The text of a source with a URL, without the network. -/
def acquireOffline (source : Config.ListSource) (url storedPath : Str) (seed : Option Str) :
    Load (Except ListError Acquired) := do
  if ← isFile storedPath then readStored source.name storedPath .storedOffline
  else
    match seed with
    | some seed => readList source.name seed .seedOffline none
    | none =>
        return .error (.Unavailable source.name url "offline load and no stored copy")

/-- Acquire the raw text for one list source. -/
def acquireList (source : Config.ListSource) (listDir : Str) (online : Bool) :
    Load (Except ListError Acquired) :=
  match source.url with
  | none =>
      match source.path with
      | none => return .error (.NoSource source.name)
      | some path => readList source.name path .localFile none
  | some url => do
      let stored := storedPath listDir source.name
      let etag := etagPath listDir source.name
      let seed ← seedOf source
      if online then
        match ← fetchWithEtag url stored etag with
        | .ok acquired => return .ok acquired
        | .error reason => fallBack source url stored seed reason
      else acquireOffline source url stored seed

/-! ### What the pieces do -/

/-- The operations that leave a file alone. -/
def Avoids (path : Str) (op : Op) : Prop := path ∉ op.changes

section Pieces

variable {stored etag : Str}

theorem tmp_ne {path : Str} {c : Char} (last : path.getLast? = some c) (other : c ≠ 'p')
    (file : Str) : path ≠ withExtension file "tmp".toList := by
  intro same
  rw [same, tmpPath_last] at last
  exact other (Option.some.inj last).symm

/-- A write fails and leaves anything of the temporary file, or the new content is there
whole. -/
theorem ensures_writeAtomic {duty : Duty World Reply} {post : World → Except String Unit → Prop}
    {path : Str} {bytes : List UInt8} {world : World}
    (alive : duty.alive world)
    (writes : duty.safe world (.write (withExtension path "tmp".toList) bytes))
    (written : duty.alive (world.put (withExtension path "tmp".toList) (some bytes)))
    (renames : duty.safe (world.put (withExtension path "tmp".toList) (some bytes))
      (.rename (withExtension path "tmp".toList) path))
    (failed : ∀ reason content,
      post (world.put (withExtension path "tmp".toList) content) (.error reason))
    (replaced : post ((world.put (withExtension path "tmp".toList) none).change path (some bytes))
      (.ok ())) :
    Ensures effect duty post (writeAtomic path bytes) world := by
  simp only [writeAtomic, write, rename]
  refine ⟨alive, writes, ?_⟩
  intro reply after effected _
  cases reply with
  | error failure =>
      cases effected
      exact failed failure.reason failure.left
  | ok done =>
      cases effected
      refine ⟨written, renames, ?_⟩
      intro reply after effected _
      cases reply with
      | error err =>
          cases effected
          exact failed err (some bytes)
      | ok done =>
          simp only [effect, World.put_self] at effected
          cases effected
          have emptied : (world.put (withExtension path "tmp".toList) (some bytes)).put
              (withExtension path "tmp".toList) none =
              world.put (withExtension path "tmp".toList) none := by
            simp only [World.put, Function.update_idem]
          rw [emptied]
          exact replaced

theorem all_storedEtag {ok : Op → Prop} (isFile : ok (.isFile stored))
    (read : ok (.readToString etag)) : All ok (storedEtag stored etag) := by
  refine ⟨isFile, ?_⟩
  intro found
  cases found with
  | false => trivial
  | true =>
      refine ⟨read, ?_⟩
      intro reply
      cases reply <;> trivial

theorem all_confirm {ok : Op → Prop} (read : ok (.readToString stored))
    (touches : ok (.touch stored)) : All ok (confirm stored) := by
  refine ⟨read, ?_⟩
  intro reply
  cases reply with
  | error err => trivial
  | ok text => exact ⟨touches, fun _ => trivial⟩

theorem all_writeAtomic {ok : Op → Prop} {path : Str} {bytes : List UInt8}
    (writes : ok (.write (withExtension path "tmp".toList) bytes))
    (renames : ok (.rename (withExtension path "tmp".toList) path)) :
    All ok (writeAtomic path bytes) := by
  refine ⟨writes, ?_⟩
  intro reply
  cases reply with
  | error failure => trivial
  | ok done => exact ⟨renames, fun _ => trivial⟩

theorem all_seedOf {ok : Op → Prop} (source : Config.ListSource)
    (isFile : ∀ path, ok (.isFile path)) : All ok (seedOf source) := by
  simp only [seedOf]
  cases source.path with
  | none => trivial
  | some path =>
      refine ⟨isFile path, ?_⟩
      intro found
      cases found <;> trivial

theorem all_readList {ok : Op → Prop} (name path : Str) (origin : ListOrigin)
    (age : Option Nat) (read : ok (.readToString path)) : All ok (readList name path origin age) := by
  refine ⟨read, ?_⟩
  intro reply
  cases reply <;> trivial

theorem all_readStored {ok : Op → Prop} (name path : Str) (origin : ListOrigin)
    (read : ok (.readToString path)) (age : ok (.ageOf path)) :
    All ok (readStored name path origin) := by
  refine ⟨read, ?_⟩
  intro reply
  cases reply with
  | error err => trivial
  | ok text => exact ⟨age, fun _ => trivial⟩

theorem all_fallBack {ok : Op → Prop} (source : Config.ListSource) (url : Str)
    (seed : Option Str) (reason : String) (isFile : ∀ path, ok (.isFile path))
    (read : ∀ path, ok (.readToString path)) (age : ∀ path, ok (.ageOf path)) :
    All ok (fallBack source url stored seed reason) := by
  refine ⟨isFile stored, ?_⟩
  intro found
  cases found with
  | true => exact all_readStored _ _ _ (read _) (age _)
  | false =>
      cases seed with
      | none => trivial
      | some seed => exact all_readList _ _ _ _ (read _)

end Pieces

end Sumidero.Lists
