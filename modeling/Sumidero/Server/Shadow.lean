import Sumidero.Db.Rows
import Sumidero.Server.Admission

namespace Sumidero.Server

open Text Dns Cache Sumidero.Filter Data

/-! Shadow mode: answered queries are mirrored to a reference resolver, a bounded number at a
time, and answers that diverge are written down. -/

def CLASS_EXPECTED : Str := "expected".toList
def CLASS_WE_BLOCK : Str := "we-block-they-answer".toList
def CLASS_THEY_BLOCK : Str := "they-block-we-answer".toList
def CLASS_RCODE : Str := "rcode-mismatch".toList

/-- At most this many comparisons in flight; beyond it queries are sampled out. -/
def MAX_INFLIGHT : Nat := 64

def isUnspecified (address : List UInt8) : Bool := address.all fun byte => byte = 0

/-- The addresses among the answers: one at least, and every one unspecified. -/
def allUnspecified (sawAddr : Bool) : List Record → Bool
  | [] => sawAddr
  | record :: rest =>
      match record.data with
      | .A address | .AAAA address =>
          if isUnspecified address then allUnspecified true rest else false
      | _ => allUnspecified sawAddr rest

/-- Does this response look like a block? -/
def looksBlocked (resp : Message) : Bool :=
  match resp.responseCode with
  | .NXDomain => true
  | .NoError => allUnspecified false resp.answers
  | _ => false

/-- What shadow mode uses of the DNS library: how a code is shown, and a type's number. -/
structure Shown where
  rcode : ResponseCode → Str
  qtype : RecordType → UInt16

variable (shown : Shown)

def describe (resp : Message) (blockedVerdict : Bool) : Str :=
  let style :=
    if blockedVerdict then "blocked/".toList
    else if looksBlocked resp then "blocky/".toList
    else []
  style ++ shown.rcode resp.responseCode

/-- Ours, theirs and the class, when the outcomes diverge. -/
def classify (ours : Message) (oursBlocked : Bool) (theirs : Message) : Option (Str × Str × Str) :=
  let oursDesc := describe shown ours oursBlocked
  let theirsDesc := describe shown theirs false
  match oursBlocked, looksBlocked theirs with
  | true, true =>
      if ours.responseCode = theirs.responseCode then none
      else some (oursDesc, theirsDesc, CLASS_EXPECTED)
  | true, false =>
      if theirs.responseCode = .NoError ∧ theirs.answers = [] then
        some (oursDesc, theirsDesc, CLASS_EXPECTED)
      else some (oursDesc, theirsDesc, CLASS_WE_BLOCK)
  | false, true =>
      if looksBlocked ours then none else some (oursDesc, theirsDesc, CLASS_THEY_BLOCK)
  | false, false =>
      if ours.responseCode = theirs.responseCode then none
      else some (oursDesc, theirsDesc, CLASS_RCODE)

/-- One mirrored query, with the number of the query it mirrors. -/
structure Comparison where
  call : Nat
  request : Message
  ours : Message
  tap : Tap
  /-- What came of it, once it has ended. -/
  result : Option (Option Db.Divergence)

structure Shadow where
  work : Workload
  /-- Permits of the limiter. -/
  free : Nat
  comparisons : List Comparison
  /-- Handed to the log's writer. -/
  divergences : List Db.Divergence

inductive Mirroring where
  | work (event : Work)
  /-- The reference has answered, or failed. -/
  | reply (index : Nat) (theirs : Except Str Message) (ts : Int)

def Comparison.waiting (comparison : Comparison) : Bool := comparison.result.isNone

variable (proto : Proto)

namespace Shadow

def new (policy : Policy) : Shadow where
  work := .new policy
  free := MAX_INFLIGHT
  comparisons := []
  divergences := []

/-- What `shadow_tap` is told as a query is about to leave. -/
def tapped (work : Workload) : Work → Option (Nat × Handling × Handled × Tap)
  | .leave index => do
      let handling ← work.handlings[index]?
      match handling.stage with
      | .answered handled (some tap) => some (index, handling, handled, tap)
      | _ => none
  | _ => none

def spawnCompare (shadow : Shadow) (call : Nat) (request ours : Message) (tap : Tap) : Shadow :=
  match shadow.free with
  | 0 => shadow
  | free + 1 =>
      { shadow with
        free
        comparisons := shadow.comparisons ++ [{ call, request, ours, tap, result := none }] }

/-- What a comparison writes down. -/
def diverged (comparison : Comparison) (theirs : Except Str Message) (ts : Int) :
    Option Db.Divergence :=
  match theirs with
  | .error _ => none
  | .ok theirs => do
      let (ours, theirs, class_) ← classify shown comparison.ours comparison.tap.blocked theirs
      return { ts, qname := comparison.tap.qname, qtype := shown.qtype comparison.tap.qtype,
               ours, theirs, class_ }

def step (shadow : Shadow) : Mirroring → Option Shadow
  | .work event => do
      let work ← shadow.work.step proto event
      match tapped shadow.work event with
      | some (index, handling, handled, tap) =>
          return { shadow with work }.spawnCompare index handling.request handled.response tap
      | none => return { shadow with work }
  | .reply index theirs ts => do
      let comparison ← shadow.comparisons[index]?
      match comparison.result with
      | none =>
          let divergence := diverged shown comparison theirs ts
          return { shadow with
            free := shadow.free + 1
            comparisons := shadow.comparisons.set index
              { comparison with result := some divergence }
            divergences := shadow.divergences ++ divergence.toList }
      | some _ => none

end Shadow

/-! ### What a class says -/

def address? (record : Record) : Option (List UInt8) :=
  match record.data with
  | .A address | .AAAA address => some address
  | _ => none

/-- NXDOMAIN, or addresses that are all unspecified. -/
def LooksBlocked (resp : Message) : Prop :=
  resp.responseCode = .NXDomain ∨ resp.responseCode = .NoError ∧
    resp.answers.filterMap address? ≠ [] ∧
      ∀ address ∈ resp.answers.filterMap address?, isUnspecified address = true

/-- How the two answers differ, by the class it is filed under. -/
inductive Diverges (ours : Message) (oursBlocked : Bool) (theirs : Message) : Str → Prop
  | expected (blocked : oursBlocked = true)
      (style : LooksBlocked theirs ∧ ours.responseCode ≠ theirs.responseCode ∨
        theirs.responseCode = .NoError ∧ theirs.answers = []) :
      Diverges ours oursBlocked theirs CLASS_EXPECTED
  | weBlock (blocked : oursBlocked = true) (answered : ¬ LooksBlocked theirs)
      (records : theirs.responseCode = .NoError → theirs.answers ≠ []) :
      Diverges ours oursBlocked theirs CLASS_WE_BLOCK
  | theyBlock (open_ : oursBlocked = false) (theirsBlocked : LooksBlocked theirs)
      (answered : ¬ LooksBlocked ours) : Diverges ours oursBlocked theirs CLASS_THEY_BLOCK
  | rcode (open_ : oursBlocked = false) (answered : ¬ LooksBlocked theirs)
      (differ : ours.responseCode ≠ theirs.responseCode) :
      Diverges ours oursBlocked theirs CLASS_RCODE

section Classes

variable {shown} {ours theirs : Message} {oursBlocked : Bool}

theorem allUnspecified_iff (sawAddr : Bool) (answers : List Record) :
    allUnspecified sawAddr answers = true ↔
      (sawAddr = true ∨ answers.filterMap address? ≠ []) ∧
        ∀ address ∈ answers.filterMap address?, isUnspecified address = true := by
  induction answers generalizing sawAddr with
  | nil => exact ⟨fun saw => ⟨.inl saw, nofun⟩, fun held => held.1.resolve_right (absurd rfl)⟩
  | cons record rest ih =>
      have one (address : List UInt8) (here : address? record = some address) :
          (if isUnspecified address then allUnspecified true rest else false) = true ↔
            (sawAddr = true ∨ (record :: rest).filterMap address? ≠ []) ∧
              ∀ address ∈ (record :: rest).filterMap address?, isUnspecified address = true := by
        rw [List.filterMap_cons_some here, List.forall_mem_cons]
        by_cases zero : isUnspecified address = true
        · rw [if_pos zero, ih true]
          exact ⟨fun held => ⟨.inr nofun, zero, held.2⟩, fun held => ⟨.inl rfl, held.2.2⟩⟩
        · rw [if_neg zero]
          exact ⟨nofun, fun held => absurd held.2.1 zero⟩
      have none (here : address? record = none) : allUnspecified sawAddr rest = true ↔
          (sawAddr = true ∨ (record :: rest).filterMap address? ≠ []) ∧
            ∀ address ∈ (record :: rest).filterMap address?, isUnspecified address = true := by
        rw [List.filterMap_cons_none here]
        exact ih sawAddr
      simp only [allUnspecified]
      split
      · next address data => exact one address (by rw [address?, data])
      · next address data => exact one address (by rw [address?, data])
      · next notA notAAAA =>
        apply none
        rw [address?]
        split
        · next address data => exact absurd data (notA address)
        · next address data => exact absurd data (notAAAA address)
        · rfl

theorem looksBlocked_iff (resp : Message) : looksBlocked resp = true ↔ LooksBlocked resp := by
  simp only [looksBlocked, LooksBlocked]
  cases resp.responseCode with
  | NXDomain => exact ⟨fun _ => .inl rfl, fun _ => rfl⟩
  | NoError =>
      rw [allUnspecified_iff]
      constructor
      · rintro ⟨saw, unspecified⟩
        exact .inr ⟨rfl, saw.resolve_left nofun, unspecified⟩
      · rintro (other | ⟨_, some, unspecified⟩)
        · cases other
        · exact ⟨.inr some, unspecified⟩
  | _ => exact ⟨nofun, fun held => by rcases held with other | ⟨other, _⟩ <;> cases other⟩

theorem classify_diverges {oursDesc theirsDesc class_ : Str}
    (found : classify shown ours oursBlocked theirs = some (oursDesc, theirsDesc, class_)) :
    Diverges ours oursBlocked theirs class_ := by
  have style : LooksBlocked theirs ↔ looksBlocked theirs = true := (looksBlocked_iff theirs).symm
  simp only [classify] at found
  cases oursBlocked with
  | true =>
      cases theirsBlocked : looksBlocked theirs with
      | true =>
          simp only [theirsBlocked] at found
          split at found
          · cases found
          · next differ =>
            cases found
            exact .expected rfl (.inl ⟨style.mpr theirsBlocked, differ⟩)
      | false =>
          have answered : ¬ LooksBlocked theirs := by rw [style, theirsBlocked]; exact nofun
          simp only [theirsBlocked] at found
          split at found
          · next empty =>
            cases found
            exact .expected rfl (.inr empty)
          · next records =>
            cases found
            exact .weBlock rfl answered fun code empty => records ⟨code, empty⟩
  | false =>
      cases theirsBlocked : looksBlocked theirs with
      | true =>
          simp only [theirsBlocked] at found
          split at found
          · cases found
          · next oursAnswered =>
            cases found
            exact .theyBlock rfl (style.mpr theirsBlocked) fun blocked =>
              oursAnswered ((looksBlocked_iff ours).mpr blocked)
      | false =>
          have answered : ¬ LooksBlocked theirs := by rw [style, theirsBlocked]; exact nofun
          simp only [theirsBlocked] at found
          split at found
          · cases found
          · next differ =>
            cases found
            exact .rcode rfl answered differ

end Classes

/-! ### Everything a step can do -/

inductive ShadowMove (before : Shadow) : Shadow → Prop
  /-- A query goes on, unmirrored. -/
  | work {event : Work} {work : Workload} (stepped : before.work.step proto event = some work) :
      ShadowMove before { before with work }
  | spawn {index free : Nat} {handling : Handling} {handled : Handled} {tap : Tap}
      (found : before.work.handlings[index]? = some handling)
      (answered : handling.stage = .answered handled (some tap)) (permit : before.free = free + 1) :
      ShadowMove before { before with
        work := { before.work.set index { handling with stage := .left handled } with
          inFlight := before.work.inFlight - 1 }
        free
        comparisons := before.comparisons ++ [{
          call := index, request := handling.request, ours := handled.response, tap
          result := none }] }
  | reply {index : Nat} {comparison : Comparison} (theirs : Except Str Message) (ts : Int)
      (found : before.comparisons[index]? = some comparison) (pending : comparison.result = none) :
      ShadowMove before { before with
        free := before.free + 1
        comparisons := before.comparisons.set index
          { comparison with result := some (Shadow.diverged shown comparison theirs ts) }
        divergences := before.divergences ++ (Shadow.diverged shown comparison theirs ts).toList }

section Moves

variable {shown proto} {before after : Shadow} {event : Mirroring}

theorem tapped_leave {work : Workload} {event : Work} {index : Nat} {handling : Handling}
    {handled : Handled} {tap : Tap}
    (tapped : Shadow.tapped work event = some (index, handling, handled, tap)) :
    event = .leave index ∧ work.handlings[index]? = some handling ∧
      handling.stage = .answered handled (some tap) := by
  cases event with
  | leave place =>
      obtain ⟨found, here, tapped⟩ := Option.bind_eq_some_iff.mp tapped
      split at tapped
      · next answered =>
        cases tapped
        exact ⟨rfl, here, answered⟩
      · cases tapped
  | _ => cases tapped

theorem shadow_move (stepped : before.step shown proto event = some after) :
    ShadowMove shown proto before after := by
  cases event with
  | work event =>
      obtain ⟨work, moved, went⟩ := Option.bind_eq_some_iff.mp stepped
      split at went
      · next index handling handled tap tapped =>
        obtain ⟨rfl, found, answered⟩ := tapped_leave tapped
        cases permit : before.free with
        | zero =>
            simp only [Shadow.spawnCompare, permit] at went
            cases went
            exact permit ▸ .work moved
        | succ free =>
            simp only [Workload.step, found, answered, Option.bind_eq_bind,
              Option.bind_some] at moved
            cases moved
            simp only [Shadow.spawnCompare, permit] at went
            cases went
            exact .spawn found answered permit
      · cases went
        exact .work moved
  | reply index theirs ts =>
      obtain ⟨comparison, found, stepped⟩ := Option.bind_eq_some_iff.mp stepped
      split at stepped
      · next pending =>
        cases stepped
        exact .reply theirs ts found pending
      · cases stepped

end Moves

/-! ### What holds at any moment -/

/-- What is mirrored is a query that was answered, let in by the policy it was judged by, and the
mirror is told what its record says. -/
def Comparison.Mirrors (work : Workload) (comparison : Comparison) : Prop :=
  ∃ handling handled, work.handlings[comparison.call]? = some handling ∧
    handling.stage = .left handled ∧ comparison.request = handling.request ∧
    comparison.ours = handled.response ∧
    (∃ policy ∈ work.installed, clientAllowed policy.allow handling.client = true) ∧
    (handled.log.verdict = .Blocked ↔ comparison.tap.blocked = true) ∧
    handled.log.qname = comparison.tap.qname ∧ handled.log.qtype = some comparison.tap.qtype

def Comparison.divergence? (comparison : Comparison) : Option Db.Divergence :=
  comparison.result.join

structure Shadow.Sound (shadow : Shadow) : Prop where
  work : shadow.work.Sound proto
  permits : shadow.free + shadow.comparisons.countP Comparison.waiting = MAX_INFLIGHT
  mirrors : ∀ comparison ∈ shadow.comparisons, comparison.Mirrors shadow.work
  once : (shadow.comparisons.map Comparison.call).Nodup
  written : shadow.divergences.Perm (shadow.comparisons.filterMap Comparison.divergence?)
  classed : ∀ comparison ∈ shadow.comparisons, ∀ divergence,
    comparison.divergence? = some divergence →
      ∃ theirs ts, Shadow.diverged shown comparison (.ok theirs) ts = some divergence

section Invariant

variable {shown proto} {before after : Shadow} {work : Workload}

theorem Comparison.Mirrors.later {comparison : Comparison}
    (mirrors : comparison.Mirrors before.work) (continues : before.work.Continues work) :
    comparison.Mirrors work := by
  obtain ⟨handling, handled, found, left, request, ours, let_in, told⟩ := mirrors
  obtain ⟨policy, inForce, allowed⟩ := let_in
  obtain ⟨now, foundNow, _, _, ended⟩ := continues.handlings _ _ found
  obtain rfl := ended handled left
  exact ⟨now, handled, foundNow, left, request, ours,
    ⟨policy, continues.installed.subset inForce, allowed⟩, told⟩

theorem Shadow.Sound.later (sound : before.Sound shown proto) {event : Work}
    (stepped : before.work.step proto event = some work) :
    { before with work }.Sound shown proto where
  work := workload_step sound.work stepped
  permits := sound.permits
  mirrors comparison member := (sound.mirrors comparison member).later (workload_continues stepped)
  once := sound.once
  written := sound.written
  classed := sound.classed

theorem Shadow.Sound.spawn (sound : before.Sound shown proto) {index free : Nat}
    {handling : Handling} {handled : Handled} {tap : Tap}
    (found : before.work.handlings[index]? = some handling)
    (answered : handling.stage = .answered handled (some tap)) (permit : before.free = free + 1) :
    Shadow.Sound shown proto { before with
      work := { before.work.set index { handling with stage := .left handled } with
        inFlight := before.work.inFlight - 1 }
      free
      comparisons := before.comparisons ++ [{
        call := index, request := handling.request, ours := handled.response, tap
        result := none }] } := by
  have stepped : before.work.step proto (.leave index) =
      some { before.work.set index { handling with stage := .left handled } with
        inFlight := before.work.inFlight - 1 } := by
    simp only [Workload.step, found, answered, Option.bind_eq_bind, Option.bind_some]
    rfl
  have still := sound.later stepped
  have known := sound.work.each handling (List.mem_of_getElem? found)
  simp only [Handling.Sound, answered] at known
  obtain ⟨view, now, ⟨_, place, _, inForce⟩, same, tapped⟩ := known
  obtain ⟨allowed, told⟩ := shadowTap_told tapped.symm
  rw [← same] at told
  refine ⟨still.work, ?_, ?_, ?_, ?_, ?_⟩
  · have permits := sound.permits
    rw [List.countP_append, List.countP_singleton]
    simp only [Comparison.waiting, Option.isNone_none, if_true]
    omega
  · intro comparison member
    rcases List.mem_append.mp member with member | member
    · exact still.mirrors comparison member
    · rw [List.mem_singleton.mp member]
      have inside := (List.getElem?_eq_some_iff.mp found).1
      exact ⟨{ handling with stage := .left handled }, handled, List.getElem?_set_self inside, rfl,
        rfl, rfl, ⟨view.policy, List.mem_of_getElem? inForce, allowed⟩, told⟩
  · rw [List.map_append]
    apply List.nodup_append.mpr
    refine ⟨still.once, List.nodup_singleton _, ?_⟩
    -- what was mirrored before has left, and this query has not
    rintro call member other last rfl
    obtain ⟨comparison, among, rfl⟩ := List.mem_map.mp member
    obtain ⟨earlier, _, here, left, _⟩ := sound.mirrors comparison among
    rw [List.map_singleton, List.mem_singleton] at last
    rw [last, found] at here
    obtain rfl := Option.some.inj here
    cases answered.symm.trans left
  · rw [List.filterMap_append]
    exact still.written.trans (.of_eq (List.append_nil _).symm)
  · intro comparison member divergence diverged
    rcases List.mem_append.mp member with member | member
    · exact still.classed comparison member divergence diverged
    · rw [List.mem_singleton.mp member] at diverged
      cases diverged

theorem Shadow.Sound.reply (sound : before.Sound shown proto) {index : Nat}
    {comparison : Comparison} (theirs : Except Str Message) (ts : Int)
    (found : before.comparisons[index]? = some comparison) (pending : comparison.result = none) :
    Shadow.Sound shown proto { before with
      free := before.free + 1
      comparisons := before.comparisons.set index
        { comparison with result := some (Shadow.diverged shown comparison theirs ts) }
      divergences :=
        before.divergences ++ (Shadow.diverged shown comparison theirs ts).toList } := by
  let ended : Comparison :=
    { comparison with result := some (Shadow.diverged shown comparison theirs ts) }
  have among := List.mem_of_getElem? found
  have unwritten : comparison.divergence? = none := by rw [Comparison.divergence?, pending]; rfl
  refine ⟨sound.work, ?_, ?_, ?_, ?_, ?_⟩
  · have permits := sound.permits
    have fewer : (before.comparisons.set index ended).countP _ + _ = _ + _ :=
      countP_set Comparison.waiting found
    have was : comparison.waiting = true := by rw [Comparison.waiting, pending]; rfl
    have after_ : ended.waiting = false := rfl
    rw [was, after_, Bool.toNat_true, Bool.toNat_false] at fewer
    change before.free + 1 + (before.comparisons.set index ended).countP _ = _
    omega
  · intro other member
    rcases List.mem_or_eq_of_mem_set member with member | rfl
    · exact sound.mirrors other member
    · exact sound.mirrors comparison among
  · have same : (before.comparisons.set index ended).map Comparison.call = _ :=
      map_set_same found rfl
    exact (congrArg List.Nodup same).mpr sound.once
  · change (before.divergences ++ (Shadow.diverged shown comparison theirs ts).toList).Perm
      ((before.comparisons.set index ended).filterMap Comparison.divergence?)
    rcases Option.eq_none_or_eq_some (Shadow.diverged shown comparison theirs ts) with
      diverged | ⟨divergence, diverged⟩
    · have silent : ended.divergence? = none := congrArg (fun made => (some made).join) diverged
      rw [diverged, records_set_same found (silent.trans unwritten.symm), Option.toList_none,
        List.append_nil]
      exact sound.written
    · have made : ended.divergence? = some divergence :=
        congrArg (fun made => (some made).join) diverged
      rw [diverged, Option.toList_some]
      exact (sound.written.append_right [divergence]).trans
        (records_set_new found unwritten made).symm
  · intro other member divergence diverged
    rcases List.mem_or_eq_of_mem_set member with member | rfl
    · exact sound.classed other member divergence diverged
    · cases theirs with
      | error err => cases diverged
      | ok theirs => exact ⟨theirs, ts, diverged⟩

theorem shadow_step {event : Mirroring} (sound : before.Sound shown proto)
    (stepped : before.step shown proto event = some after) : after.Sound shown proto := by
  cases shadow_move stepped with
  | work moved => exact sound.later moved
  | spawn found answered permit => exact sound.spawn found answered permit
  | reply theirs ts found pending => exact sound.reply theirs ts found pending

theorem shadow_new (policy : Policy) : (Shadow.new policy).Sound shown proto where
  work := workload_new policy
  permits := rfl
  mirrors := fun _ absent => nomatch absent
  once := List.nodup_nil
  written := List.Perm.refl []
  classed := fun _ absent => nomatch absent

theorem diverged_cases {comparison : Comparison} {theirs : Message} {ts : Int}
    {divergence : Db.Divergence}
    (diverged : Shadow.diverged shown comparison (.ok theirs) ts = some divergence) :
    divergence.qname = comparison.tap.qname ∧
      divergence.qtype = shown.qtype comparison.tap.qtype ∧
      Diverges comparison.ours comparison.tap.blocked theirs divergence.class_ := by
  obtain ⟨⟨oursDesc, theirsDesc, class_⟩, found, same⟩ := Option.bind_eq_some_iff.mp diverged
  cases same
  exact ⟨rfl, rfl, classify_diverges found⟩

end Invariant

def trackerQuestion : Query := Query.query (plainName "tracker.test.") .A

/-- A blocked name, that the reference answers. -/
def blockedHere (first : Policy) : List Mirroring :=
  [.work (.call (Message.asking 7 trackerQuestion) laptop), .work (.enter 0), .work (.load 0),
    .work (.answer 0 (Pipeline.idle first fun _ => none) atStart), .work (.leave 0),
    .reply 0 (.ok ((Message.new 7 .Response .Query).addAnswer
      (Record.fromRdata (plainName "tracker.test.") 60 (.A [192, 0, 2, 1])))) 1700000000]

def plainShown : Shown where
  rcode _ := "No Error".toList
  qtype
    | .A => 1
    | .AAAA => 28
    | .CNAME => 5
    | .SOA => 6
    | .ANY => 255
    | .Unknown code => code.toUInt16

/-- The one query, answered and not yet mirrored. -/
def answeredOnce (policy : Policy) (handled : Handled) (tap : Option Tap) : Shadow where
  work := {
    policy
    earlier := []
    inFlight := 1
    handlings := [{
      request := Message.asking 7 trackerQuestion
      client := laptop
      stage := .answered handled tap
      since := 0
      crowd := 0 }]
    log := [handled.log] }
  free := MAX_INFLIGHT
  comparisons := []
  divergences := []

theorem blockedHere_runs {policy : Policy} {list : Nat} {rule : MatchedRule}
    (open_ : policy.allow = everyone)
    (blocks : policy.engine.verdict (plainProto.qname trackerQuestion) = .Block list rule) :
    ∃ final, run (Shadow.step plainShown plainProto) (.new policy) (blockedHere policy) =
      some final ∧ final.divergences.map Db.Divergence.class_ = [CLASS_WE_BLOCK] := by
  let view := Pipeline.idle policy fun _ => none
  have tapped : view.shadowTap plainProto (Message.asking 7 trackerQuestion) laptop atStart =
      some { blocked := true, qname := plainProto.qname trackerQuestion, qtype := .A } := by
    have allowed : clientAllowed policy.allow laptop = true := by rw [open_]; rfl
    unfold Proto.qname at blocks ⊢
    simp only [view, Pipeline.shadowTap, Pipeline.idle, Message.asking, Message.addQuery,
      Message.new, List.nil_append, List.head?_cons, allowed, blocks]
    rfl
  rw [blockedHere, run_cons_of_step _ rfl, run_cons_of_step _ rfl, run_cons_of_step _ rfl,
    run_cons_of_step _ rfl]
  change ∃ final, run _ (answeredOnce policy (view.handleAt plainProto _ laptop atStart)
    (view.shadowTap plainProto (Message.asking 7 trackerQuestion) laptop atStart)) _ =
      some final ∧ _
  rw [tapped]
  exact ⟨_, rfl, rfl⟩

end Sumidero.Server
