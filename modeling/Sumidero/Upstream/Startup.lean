import Sumidero.Upstream.Bootstrap
import Sumidero.Upstream.Connection

namespace Sumidero.Upstream

open Text Net Data

/-! `UpstreamPool::new`: the upstreams connect in rounds, all that are still down at once, until
one is live or the budget is spent.  Instants are milliseconds. -/

def INIT_RETRY_BACKOFF_START : Nat := 500
def INIT_RETRY_BACKOFF_MAX : Nat := 5000
def DEFAULT_CONNECT_BUDGET : Nat := 30000

/-- One round, as the clock and the network make it: `none` when a build is not over in time. -/
structure Round (Transport : Type) where
  started : Nat
  builds : Nat → Option (Except Str Transport)
  ended : Nat

/-- One upstream during start-up: its label, its connection, and why it has none. -/
structure Slot (Transport : Type) where
  label : Str
  built : Option Transport
  error : Str

variable {Transport Tls : Type}

def Round.result (round : Round Transport) (index : Nat) : Except Str Transport :=
  match round.builds index with
  | some result => result
  | none => .error "connection timed out".toList

/-- The build of an upstream that is still down, with what has come of it. -/
def Slot.tried (round : Round Transport) (index : Nat) (slot : Slot Transport) : Slot Transport :=
  match slot.built with
  | some _ => slot
  | none =>
      match round.result index with
      | .ok transport => { slot with built := some transport }
      | .error err => { slot with error := slot.label ++ ": ".toList ++ err }

def givingUp (budget : Str) (slots : List (Slot Transport)) : Error :=
  .Init ("no upstream could be connected within ".toList ++ budget ++
    "; giving up (the process will exit and systemd will restart it): ".toList ++
    "; ".toList.intercalate (slots.map Slot.error))

/-- The rounds, until they are over; none when more rounds are needed. -/
def connect (budget : Str) (deadline : Nat) :
    List (Slot Transport) → Nat → List (Round Transport) →
      Option (Except Error (List (Slot Transport)))
  | _, _, [] => none
  | slots, backoff, round :: rest =>
      let slots := slots.mapIdx (Slot.tried round)
      if slots.any fun slot => slot.built.isSome then some (.ok slots)
      else if deadline ≤ round.ended + backoff then some (.error (givingUp budget slots))
      else connect budget deadline slots (min (backoff * 2) INIT_RETRY_BACKOFF_MAX) rest

def Slot.new (label : Str) : Slot Transport where
  label
  built := none
  error := []

/-- The configuration as `UpstreamPool::new` takes it; the budget also as it is shown. -/
structure PoolConfig extends UpstreamConfig where
  timeoutMs : Nat
  connectBudget : Nat
  budgetShown : Str

/-- The upstreams, once their connections are known; `tls` is the built client configuration. -/
def PoolConfig.start (parse : Str → Except Str Url) (tls : Except Error Tls) (cfg : PoolConfig)
    (began : Nat) (rounds : List (Round Transport)) :
    Option (Except Error (List (Slot Transport))) :=
  if cfg.urls.isEmpty then some (.error (.Init "no upstream URLs configured".toList))
  else if cfg.timeoutMs = 0 then some (.error (.Init "timeout_ms must be > 0".toList))
  else
    match tls.bind (factories parse cfg.toUpstreamConfig) with
    | .error err => some (.error err)
    | .ok built =>
        connect cfg.budgetShown (began + cfg.connectBudget)
          (built.map fun factory => Slot.new factory.url) INIT_RETRY_BACKOFF_START rounds

/-- How an upstream joins the pool. -/
def Slot.initial (now : Nat) (slot : Slot Transport) : ReconnectingUpstream :=
  match slot.built with
  | some _ => .new (.connected 1 none) now
  | none => .new (.down now (String.ofList slot.error)) now

/-! ### How long it can take -/

/-- What is slept in all before a round, from a first backoff on. -/
def slept : Nat → Nat → Nat
  | _, 0 => 0
  | backoff, rounds + 1 => backoff + slept (min (backoff * 2) INIT_RETRY_BACKOFF_MAX) rounds

/-- No time is won: a round does not end before it starts, and the next does not start before the
sleep is over. -/
def Spaced : Nat → Nat → List (Round Transport) → Prop
  | _, _, [] => True
  | now, backoff, round :: rest =>
      now ≤ round.started ∧ round.started ≤ round.ended ∧
        Spaced (round.ended + backoff) (min (backoff * 2) INIT_RETRY_BACKOFF_MAX) rest

/-- Every build that was tried failed, in each of these rounds. -/
def AllFailed (count : Nat) (rounds : List (Round Transport)) : Prop :=
  ∀ round ∈ rounds, ∀ index < count, ∃ err, round.result index = .error err

/-- What the last round made of an upstream: its connection, or its last failure. -/
def Slot.Told (last : Round Transport) (index : Nat) (label : Str) (slot : Slot Transport) : Prop :=
  slot.label = label ∧
    match last.result index with
    | .ok transport => slot.built = some transport
    | .error err => slot.built = none ∧ slot.error = label ++ ": ".toList ++ err

/-- The upstreams after the last round, in their order. -/
def Told (last : Round Transport) (labels : List Str) (slots : List (Slot Transport)) : Prop :=
  slots.map Slot.label = labels ∧ ∀ (index : Nat) (slot : Slot Transport),
    slots[index]? = some slot → slot.Told last index slot.label

section Connect

variable {budget : Str} {deadline now backoff : Nat} {slots : List (Slot Transport)}
  {rounds : List (Round Transport)}

/-- Rounds enough to sleep the rest of the budget away are enough. -/
theorem connect_ends (spaced : Spaced now backoff rounds)
    (enough : deadline ≤ now + slept backoff rounds.length) (some_ : rounds ≠ []) :
    (connect budget deadline slots backoff rounds).isSome = true := by
  induction rounds generalizing now backoff slots with
  | nil => exact absurd rfl some_
  | cons round rest ih =>
      obtain ⟨starts, ends, later⟩ := spaced
      simp only [connect]
      split
      · rfl
      · split
        · rfl
        · next time =>
          simp only [List.length_cons, slept] at enough
          apply ih later
          · omega
          · rintro rfl
            simp only [List.length_nil, slept] at enough
            omega

/-- All are down, under these labels. -/
def Down (labels : List Str) (slots : List (Slot Transport)) : Prop :=
  slots.map Slot.label = labels ∧ ∀ slot ∈ slots, slot.built = none

theorem tried_told {round : Round Transport} {index : Nat} {slot : Slot Transport}
    (down : slot.built = none) : (slot.tried round index).Told round index slot.label := by
  simp only [Slot.tried, down, Slot.Told]
  cases round.result index with
  | ok transport => exact ⟨rfl, rfl⟩
  | error err => exact ⟨rfl, rfl, rfl⟩

theorem tried_label (round : Round Transport) (index : Nat) (slot : Slot Transport) :
    (slot.tried round index).label = slot.label := by
  simp only [Slot.tried]
  split
  · rfl
  · split <;> rfl

theorem Down.tried {labels : List Str} (down : Down labels slots) (round : Round Transport) :
    Told round labels (slots.mapIdx (Slot.tried round)) := by
  constructor
  · rw [← down.1]
    apply List.ext_getElem?
    intro index
    rw [List.getElem?_map, List.getElem?_mapIdx, List.getElem?_map, Option.map_map]
    exact congrArg (Option.map · slots[index]?) (funext fun slot => tried_label round index slot)
  · intro index slot found
    rw [List.getElem?_mapIdx] at found
    obtain ⟨before, here, rfl⟩ := Option.map_eq_some_iff.mp found
    rw [tried_label]
    exact tried_told (down.2 before (List.mem_of_getElem? here))

/-- A round that leaves every upstream down has failed for each of them. -/
theorem Told.failed {labels : List Str} {round : Round Transport}
    (told : Told round labels slots) (none : ¬ slots.any (fun slot => slot.built.isSome) = true) :
    Down labels slots ∧ AllFailed labels.length [round] := by
  have down : ∀ slot ∈ slots, slot.built = .none := by
    intro slot member
    cases built : slot.built with
    | none => rfl
    | some transport =>
        have live : slot.built.isSome = true := by rw [built]; rfl
        exact absurd (List.any_eq_true.mpr ⟨slot, member, live⟩) none
  refine ⟨⟨told.1, down⟩, ?_⟩
  intro other only index within
  rw [List.mem_singleton.mp only]
  rw [← told.1, List.length_map] at within
  have here := told.2 index slots[index] (List.getElem?_eq_getElem within)
  simp only [Slot.Told, down _ (List.getElem_mem within)] at here
  cases result : round.result index with
  | error err => exact ⟨err, rfl⟩
  | ok transport =>
      rw [result] at here
      cases here.2

/-- The last round is the one that connects an upstream, or the one that leaves no time. -/
theorem connect_outcome {labels : List Str} {result : Except Error (List (Slot Transport))}
    (down : Down labels slots) (short : backoff ≤ INIT_RETRY_BACKOFF_MAX)
    (settled : connect budget deadline slots backoff rounds = some result) :
    ∃ front last rest final, rounds = front ++ last :: rest ∧ AllFailed labels.length front ∧
      Told last labels final ∧
      ((∃ slot ∈ final, slot.built.isSome = true) ∧ result = .ok final ∨
        AllFailed labels.length [last] ∧ deadline ≤ last.ended + INIT_RETRY_BACKOFF_MAX ∧
          result = .error (givingUp budget final)) := by
  induction rounds generalizing slots backoff with
  | nil => cases settled
  | cons round rest ih =>
      have told := down.tried round
      simp only [connect] at settled
      split at settled
      · next live =>
        cases settled
        obtain ⟨slot, member, built⟩ := List.any_eq_true.mp live
        exact ⟨[], round, rest, _, rfl, (fun _ absent => nomatch absent), told,
          .inl ⟨⟨slot, member, built⟩, rfl⟩⟩
      · next dead =>
        obtain ⟨still, failed⟩ := told.failed dead
        split at settled
        · next late =>
          cases settled
          exact ⟨[], round, rest, _, rfl, (fun _ absent => nomatch absent), told,
            .inr ⟨failed, by omega, rfl⟩⟩
        · obtain ⟨front, last, others, final, split, failures, later⟩ :=
            ih still (Nat.min_le_right _ _) settled
          refine ⟨round :: front, last, others, final, by rw [split]; rfl, ?_, later⟩
          intro other member
          rcases List.mem_cons.mp member with rfl | member
          · exact failed other List.mem_cons_self
          · exact failures other member

end Connect

theorem networkFactory_url {parse : Str → Except Str Url} {bootstrapIps : List IpAddr} {tls : Tls}
    {url : Str} {factory : NetworkFactory Tls}
    (made : networkFactory parse bootstrapIps tls url = .ok factory) : factory.url = url := by
  simp only [networkFactory] at made
  cases parsed : parseUpstreamUrl parse url with
  | error err =>
      rw [parsed] at made
      cases made
  | ok kind =>
      rw [parsed, ok_bind] at made
      split at made
      · cases made
      · cases made
        rfl

theorem factories_labels {parse : Str → Except Str Url} {cfg : UpstreamConfig} {tls : Tls}
    {built : List (NetworkFactory Tls)} (found : factories parse cfg tls = .ok built) :
    built.map NetworkFactory.url = cfg.urls := by
  have each := mapM_ok.mp found
  clear found
  generalize cfg.urls = urls at each
  induction each with
  | nil => rfl
  | cons made _ ih => rw [List.map_cons, networkFactory_url made, ih]

theorem initial_of_slot (now : Nat) (slot : Slot Transport) : Initial (slot.initial now) := by
  simp only [Slot.initial]
  cases slot.built with
  | some transport => exact .connected now
  | none => exact .down now _

/-- A configuration error ends start-up at once; else the rounds begin with every upstream down. -/
theorem start_cases (parse : Str → Except Str Url) (tls : Except Error Tls) (cfg : PoolConfig)
    (began : Nat) :
    (∃ err, ∀ rounds : List (Round Transport), cfg.start parse tls began rounds =
      some (.error err)) ∨
    ∃ slots : List (Slot Transport), Down cfg.urls slots ∧ ∀ rounds,
      cfg.start parse tls began rounds = connect cfg.budgetShown (began + cfg.connectBudget) slots
        INIT_RETRY_BACKOFF_START rounds := by
  simp only [PoolConfig.start]
  split
  · exact .inl ⟨_, fun _ => rfl⟩
  · split
    · exact .inl ⟨_, fun _ => rfl⟩
    · split
      · exact .inl ⟨_, fun _ => rfl⟩
      · next built configured =>
        refine .inr ⟨_, ⟨?_, ?_⟩, fun _ => rfl⟩
        · have made : ∃ config, factories parse cfg.toUpstreamConfig config = .ok built := by
            cases tls with
            | error err => cases configured
            | ok config => exact ⟨config, configured⟩
          obtain ⟨config, made⟩ := made
          rw [List.map_map]
          exact factories_labels made
        · intro slot member
          obtain ⟨factory, _, rfl⟩ := List.mem_map.mp member
          rfl

/-- Start-up ends, at the latest in the round by which the budget could be slept away.  The pool
then has a live upstream, each connected or down for the reason of its last failure, as the
connections expect it; or every try has failed and less than one longest wait is left.  Only a
configuration error ends it without a round. -/
theorem startup_decides {parse : Str → Except Str Url} {tls : Except Error Tls} {cfg : PoolConfig}
    {began : Nat} {rounds : List (Round Transport)}
    (spaced : Spaced began INIT_RETRY_BACKOFF_START rounds) :
    (rounds ≠ [] → cfg.connectBudget ≤ slept INIT_RETRY_BACKOFF_START rounds.length →
      (cfg.start parse tls began rounds).isSome = true) ∧
    ∀ result, cfg.start parse tls began rounds = some result →
      (∃ err, result = .error err ∧
        ∀ others : List (Round Transport), cfg.start parse tls began others = some (.error err)) ∨
      ∃ front last rest final, rounds = front ++ last :: rest ∧
        AllFailed cfg.urls.length front ∧ Told last cfg.urls final ∧
        ((∃ slot ∈ final, slot.built.isSome = true) ∧
            (∀ now, ∀ slot ∈ final, Initial (slot.initial now)) ∧ result = .ok final ∨
          AllFailed cfg.urls.length [last] ∧
            began + cfg.connectBudget ≤ last.ended + INIT_RETRY_BACKOFF_MAX ∧
            result = .error (givingUp cfg.budgetShown final)) := by
  have cases := @start_cases Transport Tls parse tls cfg began
  rcases cases with ⟨err, refused⟩ | ⟨slots, down, begins⟩
  · refine ⟨fun _ _ => by rw [refused rounds]; rfl, ?_⟩
    intro result settled
    rw [refused rounds] at settled
    cases settled
    exact .inl ⟨err, rfl, refused⟩
  · constructor
    · intro some_ enough
      rw [begins rounds]
      exact connect_ends spaced (Nat.add_le_add_left enough began) some_
    · intro result settled
      rw [begins rounds] at settled
      obtain ⟨front, last, rest, final, split, failed, told, ends⟩ :=
        connect_outcome down (by decide) settled
      refine .inr ⟨front, last, rest, final, split, failed, told, ?_⟩
      rcases ends with ⟨live, same⟩ | ⟨dead, late, same⟩
      · exact .inl ⟨live, fun now slot _ => initial_of_slot now slot, same⟩
      · exact .inr ⟨dead, late, same⟩


/-- Nine rounds sleep the default budget away, eight do not. -/
example : slept INIT_RETRY_BACKOFF_START 8 < DEFAULT_CONNECT_BUDGET ∧
    DEFAULT_CONNECT_BUDGET ≤ slept INIT_RETRY_BACKOFF_START 9 := by decide

def loopbackPool : PoolConfig where
  urls := ["https://127.0.0.1/dns-query".toList, "quic://127.0.0.1:8853".toList]
  bootstrapIps := []
  timeoutMs := 2000
  connectBudget := DEFAULT_CONNECT_BUDGET
  budgetShown := "30s".toList

/-- Nothing answers in the first round; the second upstream does in the second. -/
def secondConnects : List (Round Nat) :=
  [{ started := 10, builds := fun _ => none, ended := 2010 },
    { started := 2510, ended := 4510
      builds := fun index => if index = 1 then some (.ok 7) else none }]

theorem startup_decides_second :
    loopbackPool.start parseLoopback (.ok ()) 10 secondConnects = some (.ok [
      { label := "https://127.0.0.1/dns-query".toList, built := none,
        error := "https://127.0.0.1/dns-query: connection timed out".toList },
      { label := "quic://127.0.0.1:8853".toList, built := some 7,
        error := "quic://127.0.0.1:8853: connection timed out".toList }]) ∧
    (secondConnects ≠ [] →
      loopbackPool.connectBudget ≤ slept INIT_RETRY_BACKOFF_START secondConnects.length →
        (loopbackPool.start parseLoopback (.ok ()) 10 secondConnects).isSome = true) ∧
    ∀ result, loopbackPool.start parseLoopback (.ok ()) 10 secondConnects = some result →
      (∃ err, result = .error err ∧ ∀ others : List (Round Nat),
        loopbackPool.start parseLoopback (.ok ()) 10 others = some (.error err)) ∨
      ∃ front last rest final, secondConnects = front ++ last :: rest ∧
        AllFailed loopbackPool.urls.length front ∧ Told last loopbackPool.urls final ∧
        ((∃ slot ∈ final, slot.built.isSome = true) ∧
            (∀ now, ∀ slot ∈ final, Initial (slot.initial now)) ∧ result = .ok final ∨
          AllFailed loopbackPool.urls.length [last] ∧
            10 + loopbackPool.connectBudget ≤ last.ended + INIT_RETRY_BACKOFF_MAX ∧
            result = .error (givingUp loopbackPool.budgetShown final)) := by
  refine ⟨rfl, startup_decides ?_⟩
  exact ⟨by decide, by decide, by decide, by decide, trivial⟩

end Sumidero.Upstream
