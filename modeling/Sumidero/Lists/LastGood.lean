import Sumidero.Lists.Fetch

namespace Sumidero.Lists

open Text Data Program
open Daemon (ListOrigin)

/-! The last good copy of a list: what `<name>.txt` holds through every load, every failing
file operation and every crash. -/

/-- The bytes are the text of a body that was received whole in a successful response, and
that holds a rule. -/
def GoodBytes (served : List (Str × Response)) (bytes : List UInt8) : Prop :=
  ∃ url response body, (url, response) ∈ served ∧ response.isSuccess = true ∧
    response.body = .ok body ∧ body.length ≤ MAX_LIST_BYTES ∧
    0 < (countRules (decodeBody body)).rules ∧ bytes = asBytes (decodeBody body)

/-- A stored copy, if there is one, is good. -/
def HoldsGood (stored : Str) (world : World) : Prop :=
  ∀ bytes, world.disk stored = some bytes → GoodBytes world.served bytes

/-- The stored copy is replaced by a rename, or left alone. -/
def Replaces (stored : Str) (op : Op) : Prop :=
  Avoids stored op ∨ ∃ source, source ≠ stored ∧ op = .rename source stored

def goodDuty (stored : Str) : Duty World Reply where
  alive := HoldsGood stored
  safe := fun _ op => Replaces stored op
  admits := fun _ _ _ => True

section Steps

variable {stored etag : Str} {world after : World}

theorem GoodBytes.mono {served more : List (Str × Response)} {bytes : List UInt8}
    (good : GoodBytes served bytes) (subset : served ⊆ more) : GoodBytes more bytes := by
  obtain ⟨url, response, body, member, rest⟩ := good
  exact ⟨url, response, body, subset member, rest⟩

theorem HoldsGood.effect {op : Op} {reply : Reply op} (good : HoldsGood stored world)
    (avoids : Avoids stored op) (effected : effect world op reply = some after) :
    HoldsGood stored after := by
  intro bytes held
  rw [effect_frame effected avoids] at held
  exact (good bytes held).mono (effect_served effected)

theorem HoldsGood.put {path : Str} (good : HoldsGood stored world) (other : stored ≠ path)
    (content : Option (List UInt8)) : HoldsGood stored (world.put path content) := by
  intro bytes held
  rw [World.put_other other] at held
  exact good bytes held

theorem HoldsGood.change {path : Str} (good : HoldsGood stored world) (other : stored ≠ path)
    (content : Option (List UInt8)) : HoldsGood stored (world.change path content) := by
  intro bytes held
  rw [World.change_other other] at held
  exact good bytes held

theorem HoldsGood.replace {bytes : List UInt8} (good : GoodBytes world.served bytes) :
    HoldsGood stored (world.change stored (some bytes)) := by
  intro other held
  rw [World.change_self] at held
  cases held
  exact good

theorem good_of_all {A : Type} {program : Program Reply A} (all : All (Avoids stored) program)
    (good : HoldsGood stored world) :
    Ensures effect (goodDuty stored) (fun after _ => HoldsGood stored after) program world := by
  apply ensures_of_all _ _ _ all good
  · exact fun _ holds => holds
  · exact fun _ _ _ avoids => .inl avoids
  · exact fun _ _ _ _ holds avoids effected => holds.effect avoids effected

theorem good_remove (good : HoldsGood stored world) (other : stored ≠ etag) :
    Ensures effect (goodDuty stored) (fun after _ => HoldsGood stored after) (remove etag)
      world := by
  apply good_of_all _ good
  exact ⟨by simpa [Avoids, Op.changes] using other, fun _ => trivial⟩

theorem good_persist {text : Str} {tag : Option Str}
    (last : stored.getLast? = some 't') (tagged : etag.getLast? = some 'g')
    (good : HoldsGood stored world) (new : GoodBytes world.served (asBytes text)) :
    Ensures effect (goodDuty stored) (fun after _ => HoldsGood stored after)
      (persist stored etag text tag) world := by
  have temporary : ∀ file, stored ≠ withExtension file "tmp".toList := tmp_ne last (by decide)
  have other : stored ≠ etag := by
    intro same
    rw [same, tagged] at last
    exact absurd last (by decide)
  have removes : ∀ middle : World, HoldsGood stored middle →
      Ensures effect (goodDuty stored) (fun after _ => HoldsGood stored after)
        (remove etag >>= fun _ => pure ()) middle := by
    intro middle holds
    exact ensures_bind (good_remove holds other)
  apply ensures_bind
  apply ensures_writeAtomic
  case alive => exact good
  case writes =>
    left
    simpa [Avoids, Op.changes] using temporary stored
  case written => exact good.put (temporary stored) _
  case renames => exact .inr ⟨_, (temporary stored).symm, rfl⟩
  case failed =>
    intro reason content
    exact removes _ (good.put (temporary stored) content)
  case replaced =>
    have replaced : HoldsGood stored ((world.put (withExtension stored "tmp".toList) none).change
        stored (some (asBytes text))) := HoldsGood.replace new
    cases tag with
    | none => exact removes _ replaced
    | some tag =>
        apply ensures_bind
        apply ensures_mono _ (good_of_all _ replaced)
        · intro middle result holds
          cases result with
          | ok done => exact holds
          | error reason => exact removes _ holds
        · apply all_writeAtomic
          · simpa [Avoids, Op.changes] using temporary etag
          · simpa [Avoids, Op.changes] using ⟨temporary etag, other⟩

theorem good_download {url : Str} {response : Response}
    (last : stored.getLast? = some 't') (tagged : etag.getLast? = some 'g')
    (good : HoldsGood stored world) (served : (url, response) ∈ world.served) :
    Ensures effect (goodDuty stored) (fun after _ => HoldsGood stored after)
      (download stored etag response) world := by
  simp only [download]
  cases received : response.body with
  | error reason => exact good
  | ok body =>
      dsimp only
      split
      · exact good
      · next some_rule =>
        have new : GoodBytes world.served (asBytes (decodeBody body)) :=
          ⟨url, response, body, served, response.body_success received, received,
            response.body_le received, Nat.pos_of_ne_zero some_rule, rfl⟩
        apply ensures_bind
        exact good_persist last tagged good new

theorem good_fetch (url : Str) (last : stored.getLast? = some 't')
    (tagged : etag.getLast? = some 'g') (good : HoldsGood stored world) :
    Ensures effect (goodDuty stored) (fun after _ => HoldsGood stored after)
      (fetchWithEtag url stored etag) world := by
  apply ensures_bind
  apply ensures_mono _ (good_of_all _ good)
  · intro asked ifNoneMatch holds
    refine ⟨holds, .inl (by simp [Avoids, Op.changes]), ?_⟩
    intro reply middle effected _
    have kept : HoldsGood stored middle :=
      holds.effect (by simp [Avoids, Op.changes]) effected
    cases reply with
    | error reason => exact kept
    | ok response =>
        have served : (url, response) ∈ middle.served := by
          cases effected
          exact List.mem_cons_self
        change Ensures _ _ _ (if response.status = 304 then confirm stored
          else download stored etag response) _
        split
        · apply good_of_all _ kept
          exact all_confirm (by simp [Avoids, Op.changes]) (by simp [Avoids, Op.changes])
        · exact good_download last tagged kept served
  · exact all_storedEtag (by simp [Avoids, Op.changes]) (by simp [Avoids, Op.changes])

theorem good_acquire (source : Config.ListSource) (listDir : Str)
    (good : HoldsGood (storedPath listDir source.name) world) :
    Ensures effect (goodDuty (storedPath listDir source.name))
      (fun after _ => HoldsGood (storedPath listDir source.name) after)
      (acquireList source listDir true) world := by
  have reads : ∀ path, Avoids (storedPath listDir source.name) (.readToString path) := by
    simp [Avoids, Op.changes]
  have looks : ∀ path, Avoids (storedPath listDir source.name) (.isFile path) := by
    simp [Avoids, Op.changes]
  simp only [acquireList]
  cases source.url with
  | none =>
      cases source.path with
      | none => exact good
      | some path => exact good_of_all (all_readList _ _ _ _ (reads path)) good
  | some url =>
      apply ensures_bind
      apply ensures_mono _ (good_of_all (all_seedOf source looks) good)
      intro seeded seed holds
      apply ensures_bind
      apply ensures_mono _ (good_fetch url (storedPath_last ..) (etagPath_last ..) holds)
      intro fetched result kept
      cases result with
      | ok acquired => exact kept
      | error reason =>
          apply good_of_all _ kept
          exact all_fallBack source url seed reason looks reads (by simp [Avoids, Op.changes])

end Steps

/-! ### Failed fetches -/

/-- An operation that changes no file. -/
def ReadsOnly (op : Op) : Prop := op.changes = []

/-- Every file is as it was. -/
def Unchanged (world after : World) : Prop := after.disk = world.disk

theorem unchanged_of_readsOnly {world after : World} {op : Op} {reply : Reply op}
    (reads : ReadsOnly op) (effected : effect world op reply = some after) :
    Unchanged world after := by
  funext path
  apply effect_frame effected
  rw [reads]
  exact List.not_mem_nil

section Failures

variable {admits : World → (op : Op) → Reply op → Prop}

theorem unchanged_of_all {A : Type} {program : Program Reply A} {world : World}
    (all : All ReadsOnly program) :
    Ensures effect (.considering admits) (fun after _ => Unchanged world after) program world := by
  have here : Unchanged world world := rfl
  apply ensures_of_all _ _ _ all here
  · exact fun _ _ => trivial
  · exact fun _ _ _ _ => trivial
  · exact fun _ _ _ _ same reads effected => (unchanged_of_readsOnly reads effected).trans same

theorem ensures_free {A : Type} (program : Program Reply A) (world : World) :
    Ensures effect (.considering admits) (fun _ _ => True) program world := by
  induction program generalizing world with
  | done result => trivial
  | perform op next ih => exact ⟨trivial, trivial, fun reply after _ _ => ih reply after⟩

theorem fetch_error_keeps (url stored etag : Str) (world : World) :
    Ensures effect (.considering admits)
      (fun after result => ∀ reason, result = .error reason → Unchanged world after)
      (fetchWithEtag url stored etag) world := by
  apply ensures_bind
  apply ensures_mono _ (unchanged_of_all (all_storedEtag rfl rfl))
  intro asked ifNoneMatch same
  refine ⟨trivial, trivial, ?_⟩
  intro reply middle effected _
  have reads : ReadsOnly (.send url ifNoneMatch) := rfl
  have unchanged : Unchanged world middle := (unchanged_of_readsOnly reads effected).trans same
  cases reply with
  | error reason => exact fun _ _ => unchanged
  | ok response =>
      change Ensures _ _ _ (if response.status = 304 then confirm stored
        else download stored etag response) _
      split
      · apply ensures_mono _ (unchanged_of_all (all_confirm rfl rfl))
        intro after result kept _ _
        exact kept.trans unchanged
      · simp only [download]
        cases response.body with
        | error reason => exact fun _ _ => unchanged
        | ok body =>
            dsimp only
            split
            · exact fun _ _ => unchanged
            · apply ensures_bind
              apply ensures_mono _ (ensures_free _ _)
              intro after _ _ reason failed
              cases failed

end Failures

/-- A fetch that succeeds does not say that it failed. -/
theorem fetch_yields (url stored etag : Str) :
    Yields (fun result => ∀ acquired, result = .ok acquired → acquired.origin.fetchFailed = false)
      (fetchWithEtag url stored etag) := by
  apply yields_bind
  intro ifNoneMatch reply
  cases reply with
  | error reason => exact fun _ fetched => nomatch fetched
  | ok response =>
      change Yields _ (if response.status = 304 then confirm stored
        else download stored etag response)
      split
      · intro reply
        cases reply with
        | error err => exact fun _ fetched => nomatch fetched
        | ok text =>
            intro _ acquired fetched
            cases fetched
            rfl
      · simp only [download]
        cases response.body with
        | error reason => exact fun _ fetched => nomatch fetched
        | ok body =>
            dsimp only
            split
            · exact fun _ fetched => nomatch fetched
            · apply yields_bind
              intro _ acquired fetched
              cases fetched
              rfl

/-- The stored copy can be looked at and read. -/
def Readable (stored : Str) (world : World) : (op : Op) → Reply op → Prop
  | .isFile path, found => path = stored → (world.disk path).isSome = true → found = true
  | .readToString path, .error _ => path ≠ stored
  | _, _ => True

theorem fallBack_stored {stored : Str} {source : Config.ListSource} {url text : Str}
    {seed : Option Str} {reason : String} {world : World}
    (held : world.disk stored = some (asBytes text)) :
    Ensures effect (.considering (Readable stored))
      (fun after result => Unchanged world after ∧ ∃ age, result = .ok
        { text, origin := .storedAfterFetchFailure reason, verifiedAgeSecs := age })
      (fallBack source url stored seed reason) world := by
  refine ⟨trivial, trivial, ?_⟩
  intro found looked effected admitted
  have present : found = true := admitted rfl (by rw [held]; rfl)
  subst present
  obtain ⟨rfl, _⟩ := effect_isFile effected
  refine ⟨trivial, trivial, ?_⟩
  intro reply read effected admitted
  cases reply with
  | error err => exact absurd rfl admitted
  | ok contents =>
      obtain ⟨rfl, found⟩ := effect_read effected
      obtain rfl := asBytes_injective (Option.some.inj (held.symm.trans found))
      refine ⟨trivial, trivial, ?_⟩
      intro age after effected _
      cases effected
      exact ⟨rfl, age, rfl⟩

/-- What acquiring a list online returns while its stored copy can be read: the fetched
text, or the stored one with every file as it was. -/
theorem acquire_readable {source : Config.ListSource} {listDir url text : Str} {world : World}
    (remote : source.url = some url)
    (held : world.disk (storedPath listDir source.name) = some (asBytes text)) :
    Ensures effect (.considering (Readable (storedPath listDir source.name)))
      (fun after result => ∃ acquired, result = .ok acquired ∧
        (acquired.origin.fetchFailed = true → acquired.text = text ∧ Unchanged world after))
      (acquireList source listDir true) world := by
  simp only [acquireList]
  rw [remote]
  apply ensures_bind
  apply ensures_mono _ (unchanged_of_all (all_seedOf source fun _ => rfl))
  intro seeded seed same
  apply ensures_bind
  apply ensures_mono _ (ensures_yields (fetch_error_keeps url _ _ _) (fetch_yields url _ _))
  intro fetched result outcome
  obtain ⟨keeps, honest⟩ := outcome
  cases result with
  | ok acquired =>
      refine ⟨acquired, rfl, ?_⟩
      intro failed
      rw [honest acquired rfl] at failed
      cases failed
  | error reason =>
      have unchanged : Unchanged world fetched := (keeps reason rfl).trans same
      have still : fetched.disk (storedPath listDir source.name) = some (asBytes text) := by
        rw [unchanged, held]
      apply ensures_mono _ (fallBack_stored still)
      intro after result fallen
      obtain ⟨kept, age, result⟩ := fallen
      exact ⟨_, result, fun _ => ⟨rfl, kept.trans unchanged⟩⟩

/-! ### Every run -/

/-- Online loads of one list; its configured URL and seed may be others each time. -/
def loads (listDir name : Str) (source : Config.ListSource) : Load (Except ListError Acquired) :=
  acquireList { source with name } listDir true

/-- A stored copy that exists is not lost. -/
def StaysStored (stored : Str) (before after : World) : Prop :=
  (before.disk stored).isSome = true → (after.disk stored).isSome = true

theorem stays_of_replaces {stored : Str} {world after : World} {op : Op} {reply : Reply op}
    (replaces : Replaces stored op) (effected : effect world op reply = some after) :
    StaysStored stored world after := by
  intro present
  rcases replaces with avoids | ⟨source, other, same⟩
  · rw [effect_frame effected avoids]
    exact present
  · subst same
    cases reply with
    | error err =>
        cases effected
        exact present
    | ok done =>
        obtain ⟨bytes, _, rfl⟩ := effect_renamed effected
        rw [World.change_self]
        rfl

/-- A process of such loads, between any two operations. -/
def KeepsGood (listDir name : Str) (process : Process World Reply (Except ListError Acquired)) :
    Prop :=
  Kept effect (goodDuty (storedPath listDir name)) (HoldsGood (storedPath listDir name))
    (fun after _ => HoldsGood (storedPath listDir name) after) process

section Runs

variable {listDir name : Str} {before after : Process World Reply (Except ListError Acquired)}

theorem keepsGood_idle (idle : before.running = none)
    (absent : before.world.disk (storedPath listDir name) = none) :
    KeepsGood listDir name before := by
  simp only [KeepsGood, Kept]
  rw [idle]
  intro bytes held
  rw [absent] at held
  cases held

/-- Whatever the replies, and wherever the process is killed. -/
theorem keepsGood_step {event : Happening Config.ListSource Reply}
    (kept : KeepsGood listDir name before)
    (stepped : step effect (loads listDir name) before event = some after) :
    KeepsGood listDir name after := by
  have each : ∀ (source : Config.ListSource) (world : World),
      HoldsGood (storedPath listDir name) world → True →
      Ensures effect (goodDuty (storedPath listDir name))
        (fun after _ => HoldsGood (storedPath listDir name) after) (loads listDir name source)
        world := by
    intro source world good _
    exact good_acquire { source with name } listDir good
  have attended : Attended (goodDuty (storedPath listDir name)).admits (fun _ _ => True)
      (fun _ => True) before event after := by
    cases event with
    | start source => trivial
    | reply answers => exact fun _ _ _ => trivial
    | crash => trivial
  exact kept_step each (fun _ _ good => good) (fun _ alive _ => alive) kept stepped attended

theorem KeepsGood.holdsGood (kept : KeepsGood listDir name before) :
    HoldsGood (storedPath listDir name) before.world := by
  have either : HoldsGood (storedPath listDir name) before.world ∨
      (goodDuty (storedPath listDir name)).alive before.world :=
    Kept.world (fun _ _ good => good) kept
  rcases either with resting | alive
  · exact resting
  · exact alive

theorem KeepsGood.stays {event : Happening Config.ListSource Reply}
    (kept : KeepsGood listDir name before)
    (stepped : step effect (loads listDir name) before event = some after) :
    StaysStored (storedPath listDir name) before.world after.world := by
  cases event with
  | start source =>
      simp only [step] at stepped
      split at stepped
      · cases stepped
        exact id
      · cases stepped
  | reply answers =>
      obtain ⟨op, next, running, effected⟩ := reply_step stepped
      exact stays_of_replaces (Kept.safe kept running) effected
  | crash =>
      cases stepped
      exact id

end Runs

/-- Through every sequence of online loads, failing file operations and crashes, a stored
copy is never lost and always the whole text of a good body; a fetch that fails changes no
file, and the stored text is what is then returned, if it can be read. -/
theorem last_good_copy_survives (listDir name : Str)
    (start : Process World Reply (Except ListError Acquired)) (idle : start.running = none)
    (absent : start.world.disk (storedPath listDir name) = none)
    (events : List (Happening Config.ListSource Reply)) :
    (Visits (step effect (loads listDir name))
        (fun process => HoldsGood (storedPath listDir name) process.world) start events ∧
      Along (step effect (loads listDir name))
        (fun before _ after => StaysStored (storedPath listDir name) before.world after.world)
        start events) ∧
      (∀ url world after reason,
        Returns effect (fun _ _ _ => True) world
          (fetchWithEtag url (storedPath listDir name) (etagPath listDir name)) after
          (.error reason) → after.disk = world.disk) ∧
      ∀ (source : Config.ListSource) url text world after result, source.url = some url →
        source.name = name →
        world.disk (storedPath listDir name) = some (asBytes text) →
        Returns effect (Readable (storedPath listDir name)) world
          (acquireList source listDir true) after result →
        ∃ acquired, result = .ok acquired ∧
          (acquired.origin.fetchFailed = true → acquired.text = text ∧ after.disk = world.disk) := by
  have initial : KeepsGood listDir name start := keepsGood_idle idle absent
  refine ⟨⟨?_, ?_⟩, ?_, ?_⟩
  · intro front back final _ ran
    exact (invariant_of_run (fun _ _ _ => keepsGood_step) initial ran).holdsGood
  · have any : Along (step effect (loads listDir name)) (fun _ _ _ => True) start events :=
      along_of_steps (fun _ _ _ _ => trivial) start events
    exact along_of_invariant (fun _ _ _ kept stepped _ => keepsGood_step kept stepped)
      (fun _ _ _ kept stepped _ => kept.stays stepped) initial any
  · intro url world after reason returns
    have ensured : Ensures effect (.considering fun _ _ _ => True)
        (fun after result => ∀ reason, result = .error reason → Unchanged world after)
        (fetchWithEtag url (storedPath listDir name) (etagPath listDir name)) world :=
      fetch_error_keeps url _ _ world
    exact post_of_returns ensured returns reason rfl
  · intro source url text world after result remote same held returns
    subst same
    exact post_of_returns (acquire_readable remote held) returns

/-! ### A first download -/

def emptyDir : World := { disk := fun _ => none, asked := none, served := [], changes := [] }

/-- Every operation succeeds, and the host answers this. -/
def allIsWell (found : Bool) (etag : Str) (response : Response) : ∀ op, Reply op
  | .isFile _ => found
  | .readToString _ => .ok etag
  | .send _ _ => .ok response
  | .touch _ => .ok ()
  | .ageOf _ => some 0
  | .write _ _ => .ok ()
  | .rename _ _ => .ok ()
  | .remove _ => .ok ()

def bodyServed (etag : Option String) (text : String) : Response where
  status := 200
  statusText := "200 OK"
  contentLength := none
  etag := etag.map String.toList
  chunks := [asBytes text.toList]
  failed := none

def adsList : Config.ListSource where
  name := "ads".toList
  url := some "https://lists.test/ads".toList
  path := none

/-- A first download, killed once the body is in place. -/
def killedDownload : List (Happening Config.ListSource Reply) :=
  .start adsList ::
    (List.replicate 4 (.reply (allIsWell false [] (bodyServed (some "v1") "||ads.com^"))) ++
      [.crash])

theorem killed_download_good :
    ∃ final, run (step effect (loads "lists".toList "ads".toList))
        { world := emptyDir, running := none } killedDownload = some final ∧
      final.world.disk (storedPath "lists".toList "ads".toList) =
        some (asBytes "||ads.com^".toList) ∧
      HoldsGood (storedPath "lists".toList "ads".toList) final.world := by
  have ran : ∃ final, run (step effect (loads "lists".toList "ads".toList))
      { world := emptyDir, running := none } killedDownload = some final ∧
      final.world.disk (storedPath "lists".toList "ads".toList) =
        some (asBytes "||ads.com^".toList) := ⟨_, rfl, rfl⟩
  obtain ⟨final, reached, held⟩ := ran
  obtain ⟨⟨good, _⟩, _⟩ := last_good_copy_survives "lists".toList "ads".toList
    { world := emptyDir, running := none } rfl rfl killedDownload
  exact ⟨final, reached, held, good killedDownload [] final (List.append_nil _).symm reached⟩

end Sumidero.Lists
