import Sumidero.Lists.LastGood

namespace Sumidero.Lists

open Text Data Program
open Daemon (ListOrigin)

/-! The ETag of a list: which body it stands for, and when a host that is sent it has
served that body. -/

/-- The ETag the next request would carry, if its body is there. -/
def tagOf (etag : Str) (world : World) : Option Str :=
  match (world.disk etag).bind fromUtf8 with
  | some text => if (trim text).isEmpty then none else some (trim text)
  | none => none

/-- The URL that was asked when the stored copy was last replaced. -/
def originOf (stored : Str) (world : World) : Option Str :=
  (world.changes.find? (·.path = stored)).bind Change.url

/-- Of the two files, the stored copy was replaced last. -/
def BodyNewest (stored etag : Str) (world : World) : Prop :=
  (world.changes.find? fun change => change.path = stored || change.path = etag).map
    Change.path = some stored

/-- A new body stands beside an ETag from before it. -/
def Unsettled (stored etag : Str) (world : World) : Prop :=
  BodyNewest stored etag world ∧ (tagOf etag world).isSome = true

/-- The stored copy is the text of a body that the URL served with this ETag. -/
def Vouched (stored : Str) (world : World) (url tag : Str) : Prop :=
  ∃ response body header, (url, response) ∈ world.served ∧ response.body = .ok body ∧
    response.etag = some header ∧ trim header = tag ∧
    world.disk stored = some (asBytes (decodeBody body))

/-- An ETag beside a stored copy vouches for it at the URL the copy came from. -/
def Paired (stored etag : Str) (world : World) : Prop :=
  ∀ tag, tagOf etag world = some tag → (world.disk stored).isSome = true →
    ∃ url, originOf stored world = some url ∧ Vouched stored world url tag

/-- The list was asked with an ETag that vouches for its stored copy. -/
def Confirmed (stored : Str) (world : World) : Prop :=
  ∃ url tag, world.asked = some (url, some tag) ∧ Vouched stored world url tag

/-- A text reported as not modified is the stored copy, and was confirmed. -/
def Verified (stored : Str) (world : World) (acquired : Acquired) : Prop :=
  acquired.origin = .notModified →
    Confirmed stored world ∧ world.disk stored = some (asBytes acquired.text)

/-! ### When an ETag vouches -/

/-- An ETag beside a stored copy is sent to no other URL than the copy came from. -/
def SameOrigin (stored etag : Str) (world : World) (source : Config.ListSource) : Prop :=
  ∀ url, source.url = some url → (tagOf etag world).isSome = true →
    (world.disk stored).isSome = true → originOf stored world = some url

/-- A request without an ETag is not answered 304, and an ETag beside a new body can be
removed. -/
def Careful (stored etag : Str) (world : World) : (op : Op) → Reply op → Prop
  | .send _ none, .ok response => response.status ≠ 304
  | .remove path, .error _ => path = etag → ¬ Unsettled stored etag world
  | _, _ => True

def vouchDuty (stored etag : Str) : Duty World Reply where
  alive := fun world => Unsettled stored etag world ∨ Paired stored etag world
  safe := fun world op => ∀ url tag, op = .send url (some tag) → Vouched stored world url tag
  admits := Careful stored etag

section Files

variable {stored etag : Str} {world : World}

theorem tagOf_put {path : Str} (other : etag ≠ path) (content : Option (List UInt8)) :
    tagOf etag (world.put path content) = tagOf etag world := by
  simp only [tagOf]
  rw [World.put_other other]

theorem tagOf_removed : tagOf etag (world.change etag none) = none := by
  simp only [tagOf]
  rw [World.change_self]
  rfl

theorem tagOf_written {header tag : Str}
    (tagged : tagOf etag (world.change etag (some (asBytes header))) = some tag) :
    trim header = tag := by
  simp only [tagOf] at tagged
  rw [World.change_self, Option.bind_some, fromUtf8_asBytes] at tagged
  dsimp only at tagged
  split at tagged
  · cases tagged
  · exact Option.some.inj tagged

theorem Vouched.put {path url tag : Str} (vouched : Vouched stored world url tag)
    (other : stored ≠ path) (content : Option (List UInt8)) :
    Vouched stored (world.put path content) url tag := by
  obtain ⟨response, body, header, served, received, named, trimmed, held⟩ := vouched
  refine ⟨response, body, header, served, received, named, trimmed, ?_⟩
  rw [World.put_other other, held]

theorem Paired.put {path : Str} (paired : Paired stored etag world) (otherBody : stored ≠ path)
    (otherTag : etag ≠ path) (content : Option (List UInt8)) :
    Paired stored etag (world.put path content) := by
  intro tag tagged present
  rw [tagOf_put otherTag] at tagged
  rw [World.put_other otherBody] at present
  obtain ⟨url, origin, vouched⟩ := paired tag tagged present
  exact ⟨url, origin, vouched.put otherBody content⟩

theorem paired_of_untagged (untagged : tagOf etag world = none) : Paired stored etag world := by
  intro tag tagged
  rw [untagged] at tagged
  cases tagged

/-- A body that was replaced last is unsettled, unless there is no ETag. -/
theorem alive_of_newest (newest : BodyNewest stored etag world) :
    Unsettled stored etag world ∨ Paired stored etag world := by
  cases tagged : tagOf etag world with
  | none => exact .inr (paired_of_untagged tagged)
  | some tag => exact .inl ⟨newest, by rw [tagged]; rfl⟩

theorem newest_change (content : Option (List UInt8)) :
    BodyNewest stored etag (world.change stored content) := by
  simp [BodyNewest, World.change]

theorem BodyNewest.put {path : Str} (newest : BodyNewest stored etag world)
    (content : Option (List UInt8)) : BodyNewest stored etag (world.put path content) := newest

theorem Vouched.serve {url other tag : Str} {response : Response}
    (vouched : Vouched stored world url tag) :
    Vouched stored (world.serve other response) url tag := by
  obtain ⟨answer, body, header, served, rest⟩ := vouched
  exact ⟨answer, body, header, List.mem_cons_of_mem _ served, rest⟩

theorem Paired.sent {url : Str} {ifNoneMatch : Option Str} {after : World}
    {reply : Except String Response} (paired : Paired stored etag world)
    (effected : effect world (.send url ifNoneMatch) reply = some after) :
    Paired stored etag after := by
  cases reply with
  | error reason =>
      cases effected
      exact paired
  | ok response =>
      cases effected
      intro tag tagged present
      obtain ⟨origin, same, vouched⟩ := paired tag tagged present
      exact ⟨origin, same, Vouched.serve vouched⟩

theorem paired_replaced {url header : Str} {ifNoneMatch : Option Str} {response : Response}
    {body : List UInt8} {path : Str} (otherBody : stored ≠ path) (other : stored ≠ etag)
    (asked : world.asked = some (url, ifNoneMatch)) (served : (url, response) ∈ world.served)
    (received : response.body = .ok body) (named : response.etag = some header) :
    Paired stored etag
      (((world.change stored (some (asBytes (decodeBody body)))).put path none).change etag
        (some (asBytes header))) := by
  intro tag tagged _
  refine ⟨url, ?_, response, body, header, served, received, named, tagOf_written tagged, ?_⟩
  · simp [originOf, World.change, World.put, asked, other.symm]
  · rw [World.change_other other, World.put_other otherBody, World.change_self]

/-- What the program does keeps its duty, and leaves the ETag paired with the body. -/
def Pairs {A : Type} (stored etag : Str) (program : Program Reply A) (world : World) : Prop :=
  Ensures effect (vouchDuty stored etag) (fun after _ => Paired stored etag after) program world

/-- Without an ETag, or with one that could stay, the ETag is paired. -/
theorem pairs_remove (alive : Unsettled stored etag world ∨ Paired stored etag world) :
    Pairs stored etag (remove etag >>= fun _ => pure ()) world := by
  refine ⟨alive, nofun, ?_⟩
  intro reply after effected admitted
  cases reply with
  | error err =>
      cases effected
      exact alive.resolve_left (admitted rfl)
  | ok done =>
      rw [effect_removed effected]
      exact paired_of_untagged tagOf_removed

theorem pairs_persist {url : Str} {ifNoneMatch : Option Str} {response : Response}
    {body : List UInt8} (last : stored.getLast? = some 't') (tagged : etag.getLast? = some 'g')
    (paired : Paired stored etag world) (asked : world.asked = some (url, ifNoneMatch))
    (served : (url, response) ∈ world.served) (received : response.body = .ok body) :
    Pairs stored etag (persist stored etag (decodeBody body) response.etag) world := by
  have bodyTmp : ∀ file, stored ≠ withExtension file "tmp".toList := tmp_ne last (by decide)
  have tagTmp : ∀ file, etag ≠ withExtension file "tmp".toList := tmp_ne tagged (by decide)
  have other : stored ≠ etag := by
    intro same
    rw [same, tagged] at last
    exact absurd last (by decide)
  apply ensures_bind
  apply ensures_writeAtomic
  case alive => exact .inr paired
  case writes => exact nofun
  case written => exact .inr (paired.put (bodyTmp stored) (tagTmp stored) _)
  case renames => exact nofun
  case failed =>
    intro reason content
    exact pairs_remove (.inr (paired.put (bodyTmp stored) (tagTmp stored) content))
  case replaced =>
    -- The old ETag, if any, now stands beside the new body.
    have newest : BodyNewest stored etag
        ((world.put (withExtension stored "tmp".toList) none).change stored
          (some (asBytes (decodeBody body)))) := newest_change _
    cases named : response.etag with
    | none => exact pairs_remove (alive_of_newest newest)
    | some header =>
        apply ensures_bind
        apply ensures_writeAtomic
        case alive => exact alive_of_newest newest
        case writes => exact nofun
        case written => exact alive_of_newest (newest.put _)
        case renames => exact nofun
        case failed =>
          intro reason content
          exact pairs_remove (alive_of_newest (newest.put content))
        case replaced => exact paired_replaced (bodyTmp etag) other asked served received named

end Files

/-! ### The loader -/

/-- What a load leaves and returns. -/
def Honest {Failure : Type} (stored etag : Str) (world : World)
    (result : Except Failure Acquired) : Prop :=
  Paired stored etag world ∧ ∀ acquired, result = .ok acquired → Verified stored world acquired

section Loader

variable {stored etag : Str} {world : World}

/-- A failure claims nothing. -/
theorem honest_error {Failure : Type} (paired : Paired stored etag world) (reason : Failure) :
    Honest stored etag world (.error reason) := by
  refine ⟨paired, ?_⟩
  intro acquired returned
  cases returned

theorem same_of_all {A : Type} {program : Program Reply A} (all : All Looks program)
    (paired : Paired stored etag world) :
    Ensures effect (vouchDuty stored etag) (fun after _ => after = world) program world := by
  refine ensures_of_all ?_ ?_ ?_ all ?_
  · intro here same
    rw [same]
    exact .inr paired
  · intro here op _ looks url tag sends
    subst sends
    cases looks
  · intro here op reply after same looks effected
    exact (same_of_looks looks effected).trans same
  · rfl

/-- A request carries the ETag that is beside the stored copy. -/
theorem asks_tagOf (paired : Paired stored etag world) :
    Ensures effect (vouchDuty stored etag) (fun after ifNoneMatch => after = world ∧
      ∀ tag, ifNoneMatch = some tag →
        tagOf etag world = some tag ∧ (world.disk stored).isSome = true)
      (storedEtag stored etag) world := by
  refine ⟨.inr paired, nofun, ?_⟩
  intro found looked effected _
  obtain ⟨rfl, present⟩ := effect_isFile effected
  cases found with
  | false => exact ⟨rfl, nofun⟩
  | true =>
      refine ⟨.inr paired, nofun, ?_⟩
      intro reply read effected _
      have reads : Looks (.readToString etag) := trivial
      have same : read = looked := same_of_looks reads effected
      subst same
      cases reply with
      | error err => exact ⟨rfl, nofun⟩
      | ok text =>
          have held : read.disk etag = some (asBytes text) := (effect_read effected).2
          refine ⟨rfl, ?_⟩
          intro tag sent
          refine ⟨?_, present rfl⟩
          simp only [tagOf]
          rw [held, Option.bind_some, fromUtf8_asBytes]
          exact sent

theorem honest_confirm (paired : Paired stored etag world) (confirmed : Confirmed stored world) :
    Ensures effect (vouchDuty stored etag) (Honest stored etag) (confirm stored) world := by
  refine ⟨.inr paired, nofun, ?_⟩
  intro reply read effected _
  have reads : Looks (.readToString stored) := trivial
  have same : read = world := same_of_looks reads effected
  subst same
  cases reply with
  | error err => exact honest_error paired _
  | ok text =>
      have held : read.disk stored = some (asBytes text) := (effect_read effected).2
      refine ⟨.inr paired, nofun, ?_⟩
      intro touched after effected _
      have touches : Looks (.touch stored) := trivial
      have same : after = read := same_of_looks touches effected
      subst same
      refine ⟨paired, ?_⟩
      intro acquired returned _
      cases returned
      exact ⟨confirmed, held⟩

theorem honest_download {url : Str} {ifNoneMatch : Option Str} {response : Response}
    (last : stored.getLast? = some 't') (tagged : etag.getLast? = some 'g')
    (paired : Paired stored etag world) (asked : world.asked = some (url, ifNoneMatch))
    (served : (url, response) ∈ world.served) :
    Ensures effect (vouchDuty stored etag) (Honest stored etag)
      (download stored etag response) world := by
  simp only [download]
  cases received : response.body with
  | error reason => exact honest_error paired _
  | ok body =>
      dsimp only
      split
      · exact honest_error paired _
      · apply ensures_bind
        apply ensures_mono _ (pairs_persist last tagged paired asked served received)
        intro after _ kept
        refine ⟨kept, ?_⟩
        intro acquired returned downloaded
        cases returned
        cases downloaded

theorem honest_fetch {url : Str} (last : stored.getLast? = some 't')
    (tagged : etag.getLast? = some 'g') (paired : Paired stored etag world)
    (same : (tagOf etag world).isSome = true → (world.disk stored).isSome = true →
      originOf stored world = some url) :
    Ensures effect (vouchDuty stored etag) (Honest stored etag)
      (fetchWithEtag url stored etag) world := by
  apply ensures_bind
  apply ensures_mono _ (asks_tagOf paired)
  intro here ifNoneMatch asks
  obtain ⟨sameWorld, carries⟩ := asks
  subst sameWorld
  have vouched : ∀ tag, ifNoneMatch = some tag → Vouched stored here url tag := by
    intro tag sent
    obtain ⟨found, present⟩ := carries tag sent
    obtain ⟨origin, came, vouched⟩ := paired tag found present
    have origins : origin = url :=
      Option.some.inj (came.symm.trans (same (by rw [found]; rfl) present))
    rw [← origins]
    exact vouched
  refine ⟨.inr paired, ?_, ?_⟩
  · intro other tag sends
    cases sends
    exact vouched tag rfl
  · intro reply after effected admitted
    have kept : Paired stored etag after := paired.sent effected
    cases reply with
    | error reason => exact honest_error kept _
    | ok response =>
        cases effected
        change Ensures _ _ _ (if response.status = 304 then confirm stored
          else download stored etag response) _
        split
        · next unmodified =>
          apply honest_confirm kept
          cases ifNoneMatch with
          | none => exact absurd unmodified admitted
          | some tag => exact ⟨url, tag, rfl, (vouched tag rfl).serve⟩
        · exact honest_download last tagged kept rfl List.mem_cons_self

theorem readList_yields (name path : Str) {origin : ListOrigin} (age : Option Nat)
    (other : origin ≠ .notModified) :
    Yields (fun result => ∀ acquired, result = .ok acquired → acquired.origin ≠ .notModified)
      (readList name path origin age) := by
  intro reply
  cases reply with
  | error err => exact nofun
  | ok text =>
      intro acquired returned
      cases returned
      exact other

theorem fallBack_yields (source : Config.ListSource) (url : Str) (seed : Option Str)
    (reason : String) :
    Yields (fun result => ∀ acquired, result = .ok acquired → acquired.origin ≠ .notModified)
      (fallBack source url stored seed reason) := by
  intro found
  cases found with
  | true =>
      intro reply
      cases reply with
      | error err => exact nofun
      | ok text =>
          intro age acquired returned
          cases returned
          exact nofun
  | false =>
      cases seed with
      | none => exact nofun
      | some seed => exact readList_yields _ _ _ nofun

theorem honest_acquire {source : Config.ListSource} {listDir : Str}
    (paired : Paired (storedPath listDir source.name) (etagPath listDir source.name) world)
    (same : SameOrigin (storedPath listDir source.name) (etagPath listDir source.name) world
      source) :
    Ensures effect
      (vouchDuty (storedPath listDir source.name) (etagPath listDir source.name))
      (Honest (storedPath listDir source.name) (etagPath listDir source.name))
      (acquireList source listDir true) world := by
  have elsewhere : ∀ (result : Except ListError Acquired),
      (∀ acquired, result = .ok acquired → acquired.origin ≠ .notModified) →
      ∀ after, Paired (storedPath listDir source.name) (etagPath listDir source.name) after →
      Honest (storedPath listDir source.name) (etagPath listDir source.name) after result := by
    intro result other after kept
    exact ⟨kept, fun acquired returned unmodified => absurd unmodified (other acquired returned)⟩
  simp only [acquireList]
  cases remote : source.url with
  | none =>
      cases source.path with
      | none => exact honest_error paired _
      | some path =>
          have other : ListOrigin.localFile ≠ .notModified := by
            intro same
            cases same
          apply ensures_mono _ (ensures_yields
            (same_of_all (all_readList _ path .localFile none trivial) paired)
            (readList_yields _ path none other))
          intro after result outcome
          obtain ⟨sameWorld, other⟩ := outcome
          subst sameWorld
          exact elsewhere result other after paired
  | some url =>
      apply ensures_bind
      apply ensures_mono _ (same_of_all (all_seedOf source fun _ => trivial) paired)
      intro seeded seed sameSeeded
      subst sameSeeded
      apply ensures_bind
      apply ensures_mono _ (honest_fetch (storedPath_last ..) (etagPath_last ..) paired
        (same url remote))
      intro fetched result outcome
      obtain ⟨kept, verified⟩ := outcome
      cases result with
      | ok acquired => exact ⟨kept, fun other returned => by cases returned; exact verified _ rfl⟩
      | error reason =>
          apply ensures_mono _ (ensures_yields
            (same_of_all (all_fallBack source url seed reason (fun _ => trivial)
              (fun _ => trivial) fun _ => trivial) kept)
            (fallBack_yields source url seed reason))
          intro after result outcome
          obtain ⟨sameWorld, other⟩ := outcome
          subst sameWorld
          exact elsewhere result other after kept

end Loader

/-! ### Every run -/

/-- What is asked of each step, in the state before it: where a load with an ETag goes, how
it is answered, and that no process is killed while a new body stands beside an old ETag. -/
def Cautious (stored etag : Str) (before : Process World Reply (Except ListError Acquired))
    (event : Happening Config.ListSource Reply)
    (after : Process World Reply (Except ListError Acquired)) : Prop :=
  Attended (Careful stored etag) (SameOrigin stored etag)
    (fun world => ¬ Unsettled stored etag world) before event after

/-- An ETag that is being sent vouches for the stored copy, at the URL it is sent to. -/
def SendsVouched (stored : Str) (process : Process World Reply (Except ListError Acquired)) :
    Prop :=
  ∀ url tag next, process.running = some (.perform (.send url (some tag)) next) →
    Vouched stored process.world url tag

/-- A load that returns reports as not modified only what was confirmed. -/
def ReportsVerified (stored : Str) (before : Process World Reply (Except ListError Acquired))
    (event : Happening Config.ListSource Reply)
    (after : Process World Reply (Except ListError Acquired)) : Prop :=
  ∀ answers op next acquired, event = .reply answers →
    before.running = some (.perform op next) → next (answers op) = .done (.ok acquired) →
    Verified stored after.world acquired

/-- A process of such loads, between any two operations. -/
def KeepsPaired (listDir name : Str) (process : Process World Reply (Except ListError Acquired)) :
    Prop :=
  Kept effect (vouchDuty (storedPath listDir name) (etagPath listDir name))
    (Paired (storedPath listDir name) (etagPath listDir name))
    (Honest (storedPath listDir name) (etagPath listDir name)) process

section Runs

variable {listDir name : Str} {before after : Process World Reply (Except ListError Acquired)}
  {event : Happening Config.ListSource Reply}

theorem keepsPaired_idle (idle : before.running = none)
    (absent : before.world.disk (storedPath listDir name) = none) :
    KeepsPaired listDir name before := by
  simp only [KeepsPaired, Kept]
  rw [idle]
  intro tag _ present
  rw [absent] at present
  cases present

theorem keepsPaired_step (kept : KeepsPaired listDir name before)
    (stepped : step effect (loads listDir name) before event = some after)
    (cautious : Cautious (storedPath listDir name) (etagPath listDir name) before event after) :
    KeepsPaired listDir name after := by
  have each : ∀ (source : Config.ListSource) (world : World),
      Paired (storedPath listDir name) (etagPath listDir name) world →
      SameOrigin (storedPath listDir name) (etagPath listDir name) world source →
      Ensures effect (vouchDuty (storedPath listDir name) (etagPath listDir name))
        (Honest (storedPath listDir name) (etagPath listDir name)) (loads listDir name source)
        world := by
    intro source world paired same
    exact @honest_acquire world { source with name } listDir paired same
  exact kept_step each (fun _ _ honest => honest.1) (fun _ alive settled => alive.resolve_left settled)
    kept stepped cautious

theorem KeepsPaired.reports (kept : KeepsPaired listDir name before)
    (stepped : step effect (loads listDir name) before event = some after)
    (cautious : Cautious (storedPath listDir name) (etagPath listDir name) before event after) :
    ReportsVerified (storedPath listDir name) before event after := by
  intro answers op next acquired same running last
  subst same
  obtain ⟨other, later, performing, effected⟩ := reply_step stepped
  rw [running] at performing
  cases performing
  have honest := Kept.returned kept running effected (cautious op next running) last
  exact honest.2 acquired rfl

end Runs

/-- Through every cautious sequence of online loads, failing file operations and crashes, an
ETag is only sent to a URL that served the stored copy with it, and a copy is reported as
not modified only if it was confirmed so. -/
theorem etag_vouches (listDir name : Str)
    (start : Process World Reply (Except ListError Acquired)) (idle : start.running = none)
    (absent : start.world.disk (storedPath listDir name) = none)
    (events : List (Happening Config.ListSource Reply))
    (cautious : Along (step effect (loads listDir name))
      (Cautious (storedPath listDir name) (etagPath listDir name)) start events) :
    Visits (step effect (loads listDir name)) (SendsVouched (storedPath listDir name)) start
        events ∧
      Along (step effect (loads listDir name)) (ReportsVerified (storedPath listDir name)) start
        events := by
  have initial : KeepsPaired listDir name start := keepsPaired_idle idle absent
  have visited : Visits (step effect (loads listDir name)) (KeepsPaired listDir name) start
      events :=
    visits_of_along (fun _ _ _ => keepsPaired_step) initial cautious
  constructor
  · refine visits_mono ?_ visited
    intro process kept url tag next running
    exact Kept.safe kept running url tag rfl
  · exact along_of_invariant (fun _ _ _ => keepsPaired_step)
      (fun _ _ _ kept stepped here => kept.reports stepped here) initial cautious

/-! ### A confirmed download, a moved list, and a killed update -/

def unmodified : Response where
  status := 304
  statusText := "304 Not Modified"
  contentLength := none
  etag := none
  chunks := []
  failed := none

/-- A download, and a load of the same URL that is answered 304. -/
def confirmedDownload : List (Happening Config.ListSource Reply) :=
  .start adsList ::
    List.replicate 6 (.reply (allIsWell false [] (bodyServed (some "v1") "||ads.com^"))) ++
  .start adsList ::
    List.replicate 3 (.reply (allIsWell true "v1".toList unmodified)) ++
    List.replicate 2 (.reply (allIsWell true "||ads.com^".toList unmodified))

theorem confirmed_download_vouched :
    ∃ asking, run (step effect (loads "lists".toList "ads".toList))
        { world := emptyDir, running := none } (confirmedDownload.take 10) = some asking ∧
      Vouched (storedPath "lists".toList "ads".toList) asking.world "https://lists.test/ads".toList
        "v1".toList := by
  have reply : ∀ {before after : Process World Reply (Except ListError Acquired)} {op : Op}
      {next : Reply op → Load (Except ListError Acquired)} {answers : ∀ op, Reply op},
      before.running = some (.perform op next) →
      Careful (storedPath "lists".toList "ads".toList) (etagPath "lists".toList "ads".toList)
        before.world op (answers op) →
      Cautious (storedPath "lists".toList "ads".toList) (etagPath "lists".toList "ads".toList)
        before (.reply answers) after :=
    fun running careful => attended_reply running careful
  have success : (200 : Nat) ≠ 304 := by decide
  have cautious : Along (step effect (loads "lists".toList "ads".toList))
      (Cautious (storedPath "lists".toList "ads".toList) (etagPath "lists".toList "ads".toList))
      { world := emptyDir, running := none } confirmedDownload := by
    refine along_cons rfl (fun _ _ tagged => absurd tagged (by decide)) ?_
    refine along_cons rfl (reply rfl trivial) ?_
    refine along_cons rfl (reply rfl success) ?_
    iterate 4 refine along_cons rfl (reply rfl trivial) ?_
    refine along_cons rfl (fun _ same _ _ => by cases same; rfl) ?_
    iterate 5 refine along_cons rfl (reply rfl trivial) ?_
    exact trivial
  obtain ⟨vouched, _⟩ := etag_vouches "lists".toList "ads".toList
    { world := emptyDir, running := none } rfl rfl confirmedDownload cautious
  have ran : ∃ asking, run (step effect (loads "lists".toList "ads".toList))
      { world := emptyDir, running := none } (confirmedDownload.take 10) = some asking ∧
      ∃ next, asking.running =
        some (.perform (.send "https://lists.test/ads".toList (some "v1".toList)) next) :=
    ⟨_, rfl, _, rfl⟩
  obtain ⟨asking, reached, next, running⟩ := ran
  exact ⟨asking, reached, vouched _ _ asking (List.take_append_drop 10 _).symm reached _ _ next
    running⟩

/-- A download, and a load of another URL under the same name. -/
def movedList : List (Happening Config.ListSource Reply) :=
  .start adsList ::
    List.replicate 6 (.reply (allIsWell false [] (bodyServed (some "v1") "||ads.com^"))) ++
  .start { adsList with url := some "https://mirror.test/ads".toList } ::
    List.replicate 2 (.reply (allIsWell true "v1".toList unmodified))

/-- A download, an update that is killed once its body is in place, and one more load. -/
def killedUpdate : List (Happening Config.ListSource Reply) :=
  .start adsList ::
    List.replicate 6 (.reply (allIsWell false [] (bodyServed (some "v1") "||ads.com^"))) ++
  .start adsList ::
    List.replicate 5
      (.reply (allIsWell true "v1".toList (bodyServed (some "v2") "||spy.com^"))) ++
  .crash :: .start adsList ::
    List.replicate 2 (.reply (allIsWell true "v1".toList unmodified))

/-- A URL is sent the ETag of another one's body, and one that is sent the ETag of its former
body. -/
theorem etag_outlives_body :
    ¬ Visits (step effect (loads "lists".toList "ads".toList))
        (SendsVouched (storedPath "lists".toList "ads".toList))
        { world := emptyDir, running := none } movedList ∧
      ¬ Visits (step effect (loads "lists".toList "ads".toList))
        (SendsVouched (storedPath "lists".toList "ads".toList))
        { world := emptyDir, running := none } killedUpdate := by
  constructor
  · have ran : ∃ final, run (step effect (loads "lists".toList "ads".toList))
        { world := emptyDir, running := none } movedList = some final ∧
        final.world.served =
          [("https://lists.test/ads".toList, bodyServed (some "v1") "||ads.com^")] ∧
        ∃ next, final.running =
          some (.perform (.send "https://mirror.test/ads".toList (some "v1".toList)) next) :=
      ⟨_, rfl, rfl, _, rfl⟩
    obtain ⟨final, reached, history, next, running⟩ := ran
    intro vouched
    obtain ⟨response, body, header, served, _⟩ :=
      vouched movedList [] final (List.append_nil _).symm reached _ _ next running
    rw [history] at served
    have mirrored : "https://mirror.test/ads".toList = "https://lists.test/ads".toList :=
      congrArg Prod.fst (List.mem_singleton.mp served)
    exact absurd mirrored (by decide)
  · have ran : ∃ final, run (step effect (loads "lists".toList "ads".toList))
        { world := emptyDir, running := none } killedUpdate = some final ∧
        final.world.served =
          [("https://lists.test/ads".toList, bodyServed (some "v2") "||spy.com^"),
            ("https://lists.test/ads".toList, bodyServed (some "v1") "||ads.com^")] ∧
        final.world.disk (storedPath "lists".toList "ads".toList) =
          some (asBytes "||spy.com^".toList) ∧
        ∃ next, final.running =
          some (.perform (.send "https://lists.test/ads".toList (some "v1".toList)) next) :=
      ⟨_, rfl, rfl, rfl, _, rfl⟩
    obtain ⟨final, reached, history, held, next, running⟩ := ran
    intro vouched
    obtain ⟨response, body, header, served, received, named, trimmed, holds⟩ :=
      vouched killedUpdate [] final (List.append_nil _).symm reached _ _ next running
    rw [history] at served
    rcases List.mem_cons.mp served with newer | older
    · cases newer
      cases named
      exact absurd trimmed (by decide)
    · cases List.mem_singleton.mp older
      have same : body = asBytes "||ads.com^".toList := by
        have whole : (bodyServed (some "v1") "||ads.com^").body =
            .ok (asBytes "||ads.com^".toList) := by decide
        exact Except.ok.inj (received.symm.trans whole)
      rw [held, same] at holds
      exact absurd holds (by decide)

end Sumidero.Lists
