import Sumidero.Data.Runs
import Sumidero.Data.Shares
import Sumidero.Server.Cloaking

namespace Sumidero.Server

open Text Dns Cache Sumidero.Filter Data

/-! `handle_at` run by many queries at once: each counts itself in, takes the policy in force,
and counts itself out however it ends, while reloads install other policies. -/

/-- What `shadow_tap` is told of a query. -/
structure Tap where
  blocked : Bool
  qname : Str
  qtype : RecordType

inductive Stage where
  | waiting
  /-- Counted in, after so many others. -/
  | entered (previously : Nat)
  /-- With the policy it has taken. -/
  | judging (previously : Nat) (policy : Policy)
  /-- Logged, and not yet mirrored or counted out. -/
  | answered (handled : Handled) (tap : Option Tap)
  | left (handled : Handled)
  /-- It panicked, or was dropped: its guard has counted it out. -/
  | unwound

/-- One query, with the history of its entry: how many policies had been replaced by then, and
how many queries were inside. -/
structure Handling where
  request : Message
  client : Net.IpAddr
  stage : Stage
  since : Nat
  crowd : Nat

structure Workload where
  policy : Policy
  /-- The policies that were in force before. -/
  earlier : List Policy
  inFlight : Nat
  handlings : List Handling
  /-- What was handed to the log's writer. -/
  log : List QueryRecord

inductive Work where
  | call (request : Message) (client : Net.IpAddr)
  | enter (index : Nat)
  | load (index : Nat)
  /-- The answer, by what it has seen of the shared state meanwhile. -/
  | answer (index : Nat) (seen : Pipeline) (now : Instant)
  | leave (index : Nat)
  | unwind (index : Nat)
  | install (policy : Policy)

def Handling.new (request : Message) (client : Net.IpAddr) : Handling where
  request
  client
  stage := .waiting
  since := 0
  crowd := 0

def Handling.inside (handling : Handling) : Bool :=
  match handling.stage with
  | .entered _ | .judging _ _ | .answered _ _ => true
  | _ => false

/-- Inside, and not there to be shed. -/
def Handling.admitted (handling : Handling) : Bool :=
  handling.inside && decide (handling.crowd < MAX_IN_FLIGHT_QUERIES)

def Handling.handled? (handling : Handling) : Option Handled :=
  match handling.stage with
  | .answered handled _ | .left handled => some handled
  | _ => none

variable (proto : Proto)

/-- A query is mirrored when it is blocked, and when it was looked up: one that was turned away,
or rewritten, is not. -/
def Pipeline.shadowTap (pipeline : Pipeline) (request : Message) (client : Net.IpAddr)
    (now : Instant) : Option Tap :=
  if MAX_IN_FLIGHT_QUERIES ≤ pipeline.inFlight then none
  else
    match request.queries.head? with
    | none => none
    | some query =>
        let qname := normalizeQname (proto.toAscii query.name)
        let qtype := query.queryType
        if !clientAllowed pipeline.policy.allow client then none
        else if qtype = .ANY then none
        else
          match pipeline.policy.engine.verdict qname with
          | .Block _ _ => some { blocked := true, qname, qtype }
          | verdict =>
              match pipeline.policy.safesearch.rewrite qname with
              | some _ => none
              | none =>
                  let resolved := pipeline.resolveCached proto request qname qtype now
                  let cloaked := blockedCnameTarget proto pipeline.policy.engine resolved.response
                  let excepted := match verdict with
                    | .Except _ _ => true
                    | _ => false
                  some { blocked := !excepted && cloaked.isSome, qname, qtype }

/-- An answer that takes no policy: shed, or not a question. -/
def Handling.early (handling : Handling) (previously : Nat) : Option Handled :=
  if MAX_IN_FLIGHT_QUERIES ≤ previously then
    some (Pipeline.shedOverload proto handling.request handling.client)
  else
    match handling.request.queries.head? with
    | none =>
        some (finish (newLog handling.client [] none .Synth)
          ((responseSkeleton handling.request).withResponseCode .FormErr) [])
    | some _ => none

namespace Workload

def new (policy : Policy) : Workload where
  policy
  earlier := []
  inFlight := 0
  handlings := []
  log := []

/-- Every policy that was in force, in order. -/
def installed (work : Workload) : List Policy := work.earlier ++ [work.policy]

def inside (work : Workload) : Nat := work.handlings.countP Handling.inside

def set (work : Workload) (index : Nat) (handling : Handling) : Workload :=
  { work with handlings := work.handlings.set index handling }

/-- `finish` hands the record to the writer. -/
def conclude (work : Workload) (index : Nat) (handling : Handling) (handled : Handled)
    (tap : Option Tap) : Workload :=
  { work.set index { handling with stage := .answered handled tap } with
    log := work.log ++ [handled.log] }

def step (work : Workload) : Work → Option Workload
  | .call request client =>
      some { work with handlings := work.handlings ++ [.new request client] }
  | .enter index => do
      let handling ← work.handlings[index]?
      match handling.stage with
      | .waiting =>
          return { work.set index { handling with
              stage := .entered work.inFlight
              since := work.earlier.length
              crowd := work.inside } with
            inFlight := work.inFlight + 1 }
      | _ => none
  | .load index => do
      let handling ← work.handlings[index]?
      match handling.stage with
      | .entered previously =>
          match handling.early proto previously with
          | some _ => none
          | none => return work.set index { handling with stage := .judging previously work.policy }
      | _ => none
  | .answer index seen now => do
      let handling ← work.handlings[index]?
      match handling.stage with
      | .entered previously =>
          let handled ← handling.early proto previously
          return work.conclude index handling handled none
      | .judging previously policy =>
          let view := { seen with inFlight := previously, policy }
          return work.conclude index handling
            (view.handleAt proto handling.request handling.client now)
            (view.shadowTap proto handling.request handling.client now)
      | _ => none
  | .leave index => do
      let handling ← work.handlings[index]?
      match handling.stage with
      | .answered handled _ =>
          return { work.set index { handling with stage := .left handled } with
            inFlight := work.inFlight - 1 }
      | _ => none
  | .unwind index => do
      let handling ← work.handlings[index]?
      match handling.stage with
      | .entered _ | .judging _ _ =>
          return { work.set index { handling with stage := .unwound } with
            inFlight := work.inFlight - 1 }
      | _ => none
  | .install policy => some { work with policy, earlier := work.earlier ++ [work.policy] }

end Workload

/-! ### Everything a step can do -/

/-- A query moves on inside: it takes a policy, or is answered. -/
inductive Inward (before : Workload) (index : Nat) (handling : Handling) : Workload → Prop
  | load {previously : Nat} (entered : handling.stage = .entered previously)
      (late : handling.early proto previously = none) :
      Inward before index handling
        (before.set index { handling with stage := .judging previously before.policy })
  | early {previously : Nat} {handled : Handled} (entered : handling.stage = .entered previously)
      (found : handling.early proto previously = some handled) :
      Inward before index handling (before.conclude index handling handled none)
  | judged {previously : Nat} {policy : Policy} (seen : Pipeline) (now : Instant)
      (judging : handling.stage = .judging previously policy) :
      Inward before index handling (before.conclude index handling
        ({ seen with inFlight := previously, policy }.handleAt proto handling.request
          handling.client now)
        ({ seen with inFlight := previously, policy }.shadowTap proto handling.request
          handling.client now))

/-- A query is counted out. -/
inductive Outward (handling : Handling) : Stage → Prop
  | leave {handled : Handled} {tap : Option Tap}
      (answered : handling.stage = .answered handled tap) :
      Outward handling (.left handled)
  | unwind (inside : handling.inside = true) (unanswered : handling.handled? = none) :
      Outward handling .unwound

inductive WorkMove (before : Workload) : Workload → Prop
  | call (request : Message) (client : Net.IpAddr) :
      WorkMove before { before with handlings := before.handlings ++ [.new request client] }
  | enter {index : Nat} {handling : Handling} (found : before.handlings[index]? = some handling)
      (waiting : handling.stage = .waiting) :
      WorkMove before { before.set index { handling with
          stage := .entered before.inFlight
          since := before.earlier.length
          crowd := before.inside } with
        inFlight := before.inFlight + 1 }
  | inward {index : Nat} {handling : Handling} {after : Workload}
      (found : before.handlings[index]? = some handling)
      (moved : Inward proto before index handling after) : WorkMove before after
  | outward {index : Nat} {handling : Handling} {stage : Stage}
      (found : before.handlings[index]? = some handling) (moved : Outward handling stage) :
      WorkMove before { before.set index { handling with stage } with
        inFlight := before.inFlight - 1 }
  | install (policy : Policy) :
      WorkMove before { before with policy, earlier := before.earlier ++ [before.policy] }

section Moves

variable {proto} {before after : Workload} {event : Work}

theorem work_move (stepped : before.step proto event = some after) :
    WorkMove proto before after := by
  cases event with
  | call request client =>
      cases stepped
      exact .call request client
  | enter index =>
      obtain ⟨handling, found, stepped⟩ := Option.bind_eq_some_iff.mp stepped
      split at stepped
      · next waiting =>
        cases stepped
        exact .enter found waiting
      · cases stepped
  | load index =>
      obtain ⟨handling, found, stepped⟩ := Option.bind_eq_some_iff.mp stepped
      split at stepped
      · next previously entered =>
        split at stepped
        · cases stepped
        · next late =>
          cases stepped
          exact .inward found (.load entered late)
      · cases stepped
  | answer index seen now =>
      obtain ⟨handling, found, stepped⟩ := Option.bind_eq_some_iff.mp stepped
      split at stepped
      · next previously entered =>
        obtain ⟨handled, early, stepped⟩ := Option.bind_eq_some_iff.mp stepped
        cases stepped
        exact .inward found (.early entered early)
      · next previously policy judging =>
        cases stepped
        exact .inward found (.judged seen now judging)
      · cases stepped
  | leave index =>
      obtain ⟨handling, found, stepped⟩ := Option.bind_eq_some_iff.mp stepped
      split at stepped
      · next handled tap answered =>
        cases stepped
        exact .outward found (.leave answered)
      · cases stepped
  | unwind index =>
      obtain ⟨handling, found, stepped⟩ := Option.bind_eq_some_iff.mp stepped
      split at stepped
      · next previously entered =>
        cases stepped
        exact .outward found (.unwind (by simp only [Handling.inside, entered])
          (by simp only [Handling.handled?, entered]))
      · next previously policy judging =>
        cases stepped
        exact .outward found (.unwind (by simp only [Handling.inside, judging])
          (by simp only [Handling.handled?, judging]))
      · cases stepped
  | install policy =>
      cases stepped
      exact .install policy

end Moves

/-- What a step does not undo: the policies that were in force, and each query, once it is over
for good. -/
structure Workload.Continues (before after : Workload) : Prop where
  installed : before.installed <+: after.installed
  handlings : ∀ (index : Nat) (handling : Handling), before.handlings[index]? = some handling →
    ∃ later, after.handlings[index]? = some later ∧ later.request = handling.request ∧
      later.client = handling.client ∧ ∀ handled, handling.stage = .left handled → later = handling

section Continues

variable {proto} {before after : Workload} {event : Work} {index : Nat} {handling : Handling}

theorem Workload.Continues.of_set (found : before.handlings[index]? = some handling)
    (unfinished : ∀ handled, handling.stage ≠ .left handled) {moved : Handling}
    (handlings : after.handlings = before.handlings.set index moved)
    (installed : before.installed = after.installed) (request : moved.request = handling.request)
    (client : moved.client = handling.client) : before.Continues after := by
  refine ⟨installed ▸ List.prefix_refl _, ?_⟩
  intro place other here
  rw [handlings, List.getElem?_set]
  by_cases same : index = place
  · subst same
    obtain rfl : handling = other := Option.some.inj (found.symm.trans here)
    rw [if_pos rfl, if_pos (List.getElem?_eq_some_iff.mp found).1]
    exact ⟨moved, rfl, request, client, fun handled left => absurd left (unfinished handled)⟩
  · rw [if_neg same]
    exact ⟨other, here, rfl, rfl, fun _ _ => rfl⟩

theorem workload_continues (stepped : before.step proto event = some after) :
    before.Continues after := by
  cases work_move stepped with
  | call request client =>
      refine ⟨List.prefix_refl _, ?_⟩
      intro index handling found
      have inside := (List.getElem?_eq_some_iff.mp found).1
      exact ⟨handling, (List.getElem?_append_left inside).trans found, rfl, rfl, fun _ _ => rfl⟩
  | enter found waiting =>
      have unfinished : ∀ handled, _ ≠ Stage.left handled :=
        fun _ left => nomatch waiting.symm.trans left
      exact .of_set found unfinished rfl rfl rfl rfl
  | inward found moved =>
      cases moved with
      | load entered late =>
          have unfinished : ∀ handled, _ ≠ Stage.left handled :=
            fun _ left => nomatch entered.symm.trans left
          exact .of_set found unfinished rfl rfl rfl rfl
      | early entered early =>
          have unfinished : ∀ handled, _ ≠ Stage.left handled :=
            fun _ left => nomatch entered.symm.trans left
          exact .of_set found unfinished rfl rfl rfl rfl
      | judged seen now judging =>
          have unfinished : ∀ handled, _ ≠ Stage.left handled :=
            fun _ left => nomatch judging.symm.trans left
          exact .of_set found unfinished rfl rfl rfl rfl
  | @outward index handling stage found moved =>
      have unfinished : ∀ handled, handling.stage ≠ .left handled := by
        intro handled left
        cases moved with
        | leave answered => cases answered.symm.trans left
        | unwind inside unanswered =>
            simp only [Handling.inside, left, Bool.false_eq_true] at inside
      exact .of_set found unfinished rfl rfl rfl rfl
  | install policy =>
      refine ⟨⟨[policy], rfl⟩, ?_⟩
      intro index handling found
      exact ⟨handling, found, rfl, rfl, fun _ _ => rfl⟩

end Continues

/-! ### What holds at any moment -/

/-- It saw as many queries inside as there were, and one policy that was in force since it
entered. -/
def Handling.Saw (handling : Handling) (installed : List Policy) (view : Pipeline) : Prop :=
  view.inFlight = handling.crowd ∧
    ∃ place, handling.since ≤ place ∧ installed[place]? = some view.policy

/-- The answer is what `handle_at` gives by what the query saw. -/
def Handling.AnsweredBy (handling : Handling) (installed : List Policy) (handled : Handled) :
    Prop :=
  ∃ (view : Pipeline) (now : Instant), handling.Saw installed view ∧
    handled = view.handleAt proto handling.request handling.client now

/-- So is what the query's mirror is told. -/
def Handling.TappedBy (handling : Handling) (installed : List Policy) (handled : Handled)
    (tap : Option Tap) : Prop :=
  ∃ (view : Pipeline) (now : Instant), handling.Saw installed view ∧
    handled = view.handleAt proto handling.request handling.client now ∧
      tap = view.shadowTap proto handling.request handling.client now

/-- What a query knows, at each stage. -/
def Handling.Sound (handling : Handling) (installed : List Policy) : Prop :=
  match handling.stage with
  | .waiting | .unwound => True
  | .entered previously => previously = handling.crowd ∧ handling.since < installed.length
  | .judging previously policy => previously = handling.crowd ∧
      ∃ place, handling.since ≤ place ∧ installed[place]? = some policy
  | .answered handled tap => handling.TappedBy proto installed handled tap
  | .left handled => handling.AnsweredBy proto installed handled

structure Workload.Sound (work : Workload) : Prop where
  gauge : work.inFlight = work.inside
  admitted : work.handlings.countP Handling.admitted ≤ MAX_IN_FLIGHT_QUERIES
  each : ∀ handling ∈ work.handlings, handling.Sound proto work.installed
  log : work.log.Perm (work.handlings.filterMap fun handling => handling.handled?.map Handled.log)

section Invariant

variable {proto} {before after : Workload} {index : Nat} {handling : Handling}

/-- A record that is not a block becomes one by a cloaked alias only. -/
theorem answerResolved_told (view : Pipeline) (request : Message) (qname : Str)
    (qtype : RecordType) (log : QueryRecord) (now : Instant) (open_ : log.verdict ≠ .Blocked) :
    ((view.answerResolved proto request qname qtype log now).log.verdict = .Blocked ↔
      (!decide (log.verdict = .Excepted) && (blockedCnameTarget proto view.policy.engine
        (view.resolveCached proto request qname qtype now).response).isSome) = true) ∧
      (view.answerResolved proto request qname qtype log now).log.qname = log.qname ∧
      (view.answerResolved proto request qname qtype log now).log.qtype = log.qtype := by
  simp only [Pipeline.answerResolved]
  by_cases excepted : log.verdict = .Excepted
  · rw [if_neg (not_not_intro excepted), decide_eq_true excepted]
    refine ⟨⟨fun blocked => absurd blocked open_, nofun⟩, rfl, rfl⟩
  · rw [if_pos excepted, decide_eq_false excepted]
    cases blockedCnameTarget proto view.policy.engine
        (view.resolveCached proto request qname qtype now).response with
    | none => exact ⟨⟨fun blocked => absurd blocked open_, nofun⟩, rfl, rfl⟩
    | some target => exact ⟨⟨fun _ => rfl, fun _ => rfl⟩, rfl, rfl⟩

/-- A query that is mirrored was let in, and its mirror is told what its record says. -/
theorem shadowTap_told {view : Pipeline} {request : Message} {client : Net.IpAddr} {now : Instant}
    {tap : Tap} (tapped : view.shadowTap proto request client now = some tap) :
    clientAllowed view.policy.allow client = true ∧
      ((view.handleAt proto request client now).log.verdict = .Blocked ↔ tap.blocked = true) ∧
      (view.handleAt proto request client now).log.qname = tap.qname ∧
      (view.handleAt proto request client now).log.qtype = some tap.qtype := by
  simp only [Pipeline.shadowTap] at tapped
  simp only [Pipeline.handleAt]
  split at tapped
  · cases tapped
  · next room =>
    rw [if_neg room]
    cases asked : request.queries.head? with
    | none =>
        rw [asked] at tapped
        cases tapped
    | some query =>
        rw [asked] at tapped
        dsimp only at tapped ⊢
        split at tapped
        · cases tapped
        · next allowed =>
          rw [if_neg allowed]
          refine ⟨by simpa using allowed, ?_⟩
          split at tapped
          · cases tapped
          · next kind =>
            rw [if_neg kind]
            cases verdict : view.policy.engine.verdict
                (normalizeQname (proto.toAscii query.name)) with
            | Block list rule =>
                rw [verdict] at tapped
                cases tapped
                exact ⟨⟨fun _ => rfl, fun _ => rfl⟩, rfl, rfl⟩
            | Except list rule =>
                rw [verdict] at tapped
                simp only [Pipeline.answerUnblocked]
                dsimp only at tapped
                cases rewritten : view.policy.safesearch.rewrite
                    (normalizeQname (proto.toAscii query.name)) with
                | some target =>
                    rw [rewritten] at tapped
                    cases tapped
                | none =>
                    rw [rewritten] at tapped
                    cases tapped
                    exact answerResolved_told view request _ _ _ now nofun
            | NoMatch =>
                rw [verdict] at tapped
                simp only [Pipeline.answerUnblocked]
                dsimp only at tapped
                cases rewritten : view.policy.safesearch.rewrite
                    (normalizeQname (proto.toAscii query.name)) with
                | some target =>
                    rw [rewritten] at tapped
                    cases tapped
                | none =>
                    rw [rewritten] at tapped
                    cases tapped
                    exact answerResolved_told view request _ _ _ now nofun

theorem early_answers {previously : Nat} {handled : Handled} (view : Pipeline) (now : Instant)
    (found : handling.early proto previously = some handled) (sees : view.inFlight = previously) :
    handled = view.handleAt proto handling.request handling.client now ∧
      none = view.shadowTap proto handling.request handling.client now := by
  simp only [Handling.early] at found
  simp only [Pipeline.handleAt, Pipeline.shadowTap, sees]
  split at found
  · next full =>
    cases found
    rw [if_pos full, if_pos full]
    exact ⟨rfl, rfl⟩
  · next room =>
    rw [if_neg room, if_neg room]
    cases asked : handling.request.queries.head? with
    | none =>
        rw [asked] at found
        cases found
        exact ⟨rfl, rfl⟩
    | some query =>
        rw [asked] at found
        cases found

theorem getElem?_of_prefix {installed later : List Policy} (more : installed <+: later)
    {place : Nat} {policy : Policy} (found : installed[place]? = some policy) :
    later[place]? = some policy := by
  obtain ⟨rest, rfl⟩ := more
  exact (List.getElem?_append_left (List.getElem?_eq_some_iff.mp found).1).trans found

theorem Handling.Saw.grow {installed later : List Policy} {view : Pipeline}
    (saw : handling.Saw installed view) (more : installed <+: later) : handling.Saw later view := by
  obtain ⟨crowd, place, since, found⟩ := saw
  exact ⟨crowd, place, since, getElem?_of_prefix more found⟩

theorem Handling.Sound.grow {installed later : List Policy}
    (sound : handling.Sound proto installed) (more : installed <+: later) :
    handling.Sound proto later := by
  simp only [Handling.Sound] at sound ⊢
  cases here : handling.stage with
  | waiting => trivial
  | unwound => trivial
  | entered previously =>
      rw [here] at sound
      have longer := more.length_le
      exact ⟨sound.1, by omega⟩
  | judging previously policy =>
      rw [here] at sound
      obtain ⟨same, place, since, found⟩ := sound
      exact ⟨same, place, since, getElem?_of_prefix more found⟩
  | answered handled tap =>
      rw [here] at sound
      obtain ⟨view, now, seen, same⟩ := sound
      exact ⟨view, now, seen.grow more, same⟩
  | left handled =>
      rw [here] at sound
      obtain ⟨view, now, seen, same⟩ := sound
      exact ⟨view, now, seen.grow more, same⟩

theorem installed_last (work : Workload) :
    work.installed[work.earlier.length]? = some work.policy := by
  rw [Workload.installed, List.getElem?_append_right (Nat.le_refl _), Nat.sub_self]
  rfl

/-- The others are as they were. -/
theorem Workload.Sound.others (sound : before.Sound proto) {moved : Handling}
    (here : moved.Sound proto before.installed) :
    ∀ other ∈ before.handlings.set index moved, other.Sound proto before.installed := by
  intro other member
  rcases List.mem_or_eq_of_mem_set member with member | rfl
  · exact sound.each other member
  · exact here

theorem Workload.Sound.conclude (sound : before.Sound proto) {handled : Handled}
    {tap : Option Tap} (found : before.handlings[index]? = some handling)
    (inside : handling.inside = true) (unanswered : handling.handled? = none)
    (answered : handling.TappedBy proto before.installed handled tap) :
    (before.conclude index handling handled tap).Sound proto where
  gauge := by
    have same : (before.conclude index handling handled tap).inside = before.inside :=
      countP_set_same found inside.symm
    exact sound.gauge.trans same.symm
  admitted := by
    have same : (before.conclude index handling handled tap).handlings.countP Handling.admitted =
        before.handlings.countP Handling.admitted := by
      apply countP_set_same found
      rw [Handling.admitted, Handling.admitted, inside]
      rfl
    exact same.trans_le sound.admitted
  each := sound.others answered
  log := by
    refine (sound.log.append_right [handled.log]).trans (records_set_new found ?_ ?_).symm
    · rw [unanswered]
      rfl
    · rfl

theorem Workload.Sound.inward (sound : before.Sound proto)
    (found : before.handlings[index]? = some handling)
    (moved : Inward proto before index handling after) : after.Sound proto := by
  have here := sound.each handling (List.mem_of_getElem? found)
  simp only [Handling.Sound] at here
  cases moved with
  | @load previously entered late =>
      rw [entered] at here
      have inside : handling.inside = true := by simp only [Handling.inside, entered]
      have unanswered : handling.handled? = none := by simp only [Handling.handled?, entered]
      have lasts : handling.since ≤ before.earlier.length := by
        have within := here.2
        simp only [Workload.installed, List.length_append, List.length_singleton] at within
        omega
      refine ⟨?_, ?_, sound.others ⟨here.1, _, lasts, installed_last before⟩, ?_⟩
      · exact sound.gauge.trans (countP_set_same found inside.symm).symm
      · refine (countP_set_same found ?_).trans_le sound.admitted
        rw [Handling.admitted, Handling.admitted, inside]
        rfl
      · refine sound.log.trans (.of_eq (records_set_same found ?_).symm)
        rw [unanswered]
        rfl
  | @early previously handled entered early =>
      rw [entered] at here
      apply sound.conclude found
      · simp only [Handling.inside, entered]
      · simp only [Handling.handled?, entered]
      · -- what `handle_at` gives here does not depend on the policy
        let view := { Pipeline.idle before.policy fun _ => none with inFlight := previously }
        let now : Instant := ⟨0, by decide⟩
        have lasts : handling.since ≤ before.earlier.length := by
          have within := here.2
          simp only [Workload.installed, List.length_append, List.length_singleton] at within
          omega
        have answers := early_answers view now early rfl
        exact ⟨view, now, ⟨here.1, _, lasts, installed_last before⟩, answers.1, answers.2⟩
  | @judged previously policy seen now judging =>
      rw [judging] at here
      obtain ⟨same, place, since, held⟩ := here
      apply sound.conclude found
      · simp only [Handling.inside, judging]
      · simp only [Handling.handled?, judging]
      · exact ⟨_, now, ⟨same, place, since, held⟩, rfl, rfl⟩

/-- Whoever is counted out was inside, and leaves its record, or none. -/
theorem Outward.left {stage : Stage} (moved : Outward handling stage) :
    handling.inside = true ∧ { handling with stage }.inside = false ∧
      { handling with stage }.handled? = handling.handled? := by
  cases moved with
  | leave answered => simp only [Handling.inside, Handling.handled?, answered, and_self]
  | unwind inside unanswered =>
      exact ⟨inside, rfl, unanswered.symm⟩

theorem Workload.Sound.outward (sound : before.Sound proto) {stage : Stage}
    (found : before.handlings[index]? = some handling) (moved : Outward handling stage) :
    { before.set index { handling with stage } with inFlight := before.inFlight - 1 }.Sound
      proto := by
  obtain ⟨inside, outside, same⟩ := moved.left
  have here : { handling with stage }.Sound proto before.installed := by
    have known := sound.each handling (List.mem_of_getElem? found)
    cases moved with
    | leave answered =>
        simp only [Handling.Sound, answered] at known
        obtain ⟨view, now, seen, same, _⟩ := known
        exact ⟨view, now, seen, same⟩
    | unwind => trivial
  refine ⟨?_, ?_, sound.others here, ?_⟩
  · have gauge : before.inFlight = before.handlings.countP Handling.inside := sound.gauge
    have fewer : (before.handlings.set index { handling with stage }).countP _ + _ = _ + _ :=
      countP_set Handling.inside found
    rw [inside, outside, Bool.toNat_true, Bool.toNat_false, ← gauge] at fewer
    change before.inFlight - 1 = (before.handlings.set index _).countP Handling.inside
    omega
  · have bound := sound.admitted
    have fewer : (before.handlings.set index { handling with stage }).countP _ + _ = _ + _ :=
      countP_set Handling.admitted found
    have gone : { handling with stage }.admitted = false := by
      rw [Handling.admitted, outside, Bool.false_and]
    rw [gone, Bool.toNat_false] at fewer
    change (before.handlings.set index _).countP _ ≤ _
    omega
  · refine sound.log.trans (.of_eq (records_set_same found ?_).symm)
    rw [same]

theorem Workload.Sound.enter (sound : before.Sound proto)
    (found : before.handlings[index]? = some handling) (waiting : handling.stage = .waiting) :
    { before.set index { handling with
          stage := .entered before.inFlight
          since := before.earlier.length
          crowd := before.inside } with
        inFlight := before.inFlight + 1 }.Sound proto := by
  let entering : Handling := { handling with
    stage := .entered before.inFlight
    since := before.earlier.length
    crowd := before.inside }
  have counted : entering.inside = true := rfl
  have outside : handling.inside = false := by simp only [Handling.inside, waiting]
  have unanswered : handling.handled? = none := by simp only [Handling.handled?, waiting]
  have lasts : before.earlier.length < before.installed.length := by
    simp only [Workload.installed, List.length_append, List.length_singleton]
    omega
  refine ⟨?_, ?_, sound.others ⟨sound.gauge, lasts⟩, ?_⟩
  · have gauge : before.inFlight = before.handlings.countP Handling.inside := sound.gauge
    have more : (before.handlings.set index entering).countP _ + _ = _ + _ :=
      countP_set Handling.inside found
    rw [outside, counted, Bool.toNat_true, Bool.toNat_false, ← gauge] at more
    change before.inFlight + 1 = (before.handlings.set index entering).countP Handling.inside
    omega
  · have among : before.handlings.countP Handling.admitted ≤
        before.handlings.countP Handling.inside := by
      apply List.countP_mono_left
      intro other _ admitted
      exact (Bool.and_eq_true_iff.mp admitted).1
    have bound := sound.admitted
    have more : (before.handlings.set index entering).countP _ + _ = _ + _ :=
      countP_set Handling.admitted found
    -- a query is let in while fewer than the cap are inside
    have room : entering.admitted = decide (before.inside < MAX_IN_FLIGHT_QUERIES) := rfl
    have crowd : before.inside = before.handlings.countP Handling.inside := rfl
    rw [room] at more
    change (before.handlings.set index entering).countP Handling.admitted ≤ _
    by_cases free : before.inside < MAX_IN_FLIGHT_QUERIES
    · rw [decide_eq_true free, Bool.toNat_true] at more
      omega
    · rw [decide_eq_false free, Bool.toNat_false] at more
      omega
  · refine sound.log.trans (.of_eq (records_set_same found ?_).symm)
    rw [unanswered]
    rfl

theorem Workload.Sound.call (sound : before.Sound proto) (request : Message)
    (client : Net.IpAddr) :
    { before with handlings := before.handlings ++ [Handling.new request client] }.Sound proto where
  gauge := by
    rw [Workload.inside, List.countP_append]
    exact sound.gauge
  admitted := by
    rw [List.countP_append]
    exact sound.admitted
  each := by
    intro handling member
    rcases List.mem_append.mp member with member | member
    · exact sound.each handling member
    · cases List.mem_singleton.mp member
      trivial
  log := by
    rw [List.filterMap_append]
    exact sound.log.trans (.of_eq (List.append_nil _).symm)

theorem workload_step {event : Work} (sound : before.Sound proto)
    (stepped : before.step proto event = some after) : after.Sound proto := by
  cases work_move stepped with
  | call request client => exact sound.call request client
  | enter found waiting => exact sound.enter found waiting
  | inward found moved => exact sound.inward found moved
  | outward found moved => exact sound.outward found moved
  | install policy =>
      have more : ({ before with policy, earlier := before.earlier ++ [before.policy] } :
          Workload).installed = before.installed ++ [policy] := rfl
      refine ⟨sound.gauge, sound.admitted, ?_, sound.log⟩
      intro handling member
      exact (sound.each handling member).grow ⟨[policy], more.symm⟩

theorem Workload.Sound.answered (sound : before.Sound proto) {handled : Handled}
    (member : handling ∈ before.handlings) (answered : handling.handled? = some handled) :
    handling.AnsweredBy proto before.installed handled := by
  have known := sound.each handling member
  simp only [Handling.Sound] at known
  simp only [Handling.handled?] at answered
  split at answered
  · next stored tap here =>
    cases answered
    rw [here] at known
    obtain ⟨view, now, seen, same, _⟩ := known
    exact ⟨view, now, seen, same⟩
  · next stored here =>
    cases answered
    rwa [here] at known
  · cases answered

theorem workload_new (policy : Policy) : (Workload.new policy).Sound proto where
  gauge := rfl
  admitted := Nat.zero_le MAX_IN_FLIGHT_QUERIES
  each := fun _ absent => nomatch absent
  log := List.Perm.refl []

end Invariant

/-- At any moment of any interleaving the gauge counts the queries inside, of which at most the
cap were let in; each query that ended has left one record, and was answered as `handle_at` does
by one policy that was in force since it entered. -/
theorem answers_under_load {policy : Policy} {events : List Work} {final : Workload}
    (ran : run (Workload.step proto) (.new policy) events = some final) :
    final.inFlight = final.inside ∧
      final.handlings.countP Handling.admitted ≤ MAX_IN_FLIGHT_QUERIES ∧
      final.log.Perm (final.handlings.filterMap fun handling =>
        handling.handled?.map Handled.log) ∧
      ∀ handling ∈ final.handlings, ∀ handled, handling.handled? = some handled →
        handling.AnsweredBy proto final.installed handled := by
  have sound : final.Sound proto :=
    invariant_of_run (fun _ _ _ => workload_step) (workload_new policy) ran
  exact ⟨sound.gauge, sound.admitted, sound.log,
    fun _ member _ answered => sound.answered member answered⟩

/-- A reload lands between a query's entry and its look at the policy. -/
def reloadMeanwhile (first second : Policy) : List Work :=
  [.call (Message.asking 7 shopQuestion) laptop, .enter 0, .install second, .load 0,
    .answer 0 (Pipeline.idle first fun _ => none) atStart, .leave 0]

theorem answers_under_load_reloaded : ∃ engine final,
    LoadedEngine.load .insertion ["||tracker.test^".toList] = some engine ∧
      run (Workload.step plainProto) (.new { engine, safesearch := { enabled := 0 }, allow := [] })
        (reloadMeanwhile { engine, safesearch := { enabled := 0 }, allow := [] }
          { engine, safesearch := { enabled := 0 }, allow := everyone }) = some final ∧
      final.inFlight = final.inside ∧
      final.handlings.countP Handling.admitted ≤ MAX_IN_FLIGHT_QUERIES ∧
      final.log.Perm (final.handlings.filterMap fun handling =>
        handling.handled?.map Handled.log) ∧
      ∀ handling ∈ final.handlings, ∀ handled, handling.handled? = some handled →
        handling.AnsweredBy plainProto final.installed handled := by
  obtain ⟨engine, loaded⟩ := trackerEngine
  obtain ⟨final, ran⟩ : ∃ final, run (Workload.step plainProto)
      (.new { engine, safesearch := { enabled := 0 }, allow := [] })
      (reloadMeanwhile { engine, safesearch := { enabled := 0 }, allow := [] }
        { engine, safesearch := { enabled := 0 }, allow := everyone }) = some final := ⟨_, rfl⟩
  exact ⟨engine, final, loaded, ran, answers_under_load plainProto ran⟩

end Sumidero.Server
