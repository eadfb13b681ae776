import Sumidero.Lists.Load

namespace Sumidero.Lists

open Text Data Program Sumidero.Filter

/-! What a completed load leaves on disk, and what a load without the network makes of it. -/

/-- Files are found, read, written and renamed without failing; the network may do anything. -/
def Working (world : World) : (op : Op) → Reply op → Prop
  | .isFile path, found => found = (world.disk path).isSome
  | .readToString path, reply => ∀ text, world.disk path = some (asBytes text) → reply = .ok text
  | .write _ _, reply => reply = .ok ()
  | .rename source _, reply => (world.disk source).isSome = true → reply = .ok ()
  | _, _ => True

/-- The files a list with a URL is kept in. -/
def keptIn (listDir : Str) (source : Config.ListSource) : List Str :=
  match source.url with
  | none => []
  | some _ =>
      let stored := storedPath listDir source.name
      let etag := etagPath listDir source.name
      [stored, withExtension stored "tmp".toList, etag, withExtension etag "tmp".toList]

/-- The files a list is read from. -/
def readFrom (listDir : Str) (source : Config.ListSource) : List Str :=
  match source.url with
  | none => source.path.toList
  | some _ => storedPath listDir source.name :: source.path.toList

/-- No list is kept where an earlier one is read from. -/
def Apart (listDir : Str) (sources : List Config.ListSource) : Prop :=
  sources.Pairwise fun earlier later =>
    ∀ path ∈ readFrom listDir earlier, path ∉ keptIn listDir later

instance (listDir : Str) (sources : List Config.ListSource) : Decidable (Apart listDir sources) :=
  inferInstanceAs (Decidable (List.Pairwise _ _))

/-- The text of a list is its stored copy, or its seed where there is no stored copy. -/
def OnDisk (listDir : Str) (source : Config.ListSource) (text : Str) (world : World) : Prop :=
  match source.url with
  | none => ∃ path, source.path = some path ∧ world.disk path = some (asBytes text)
  | some _ =>
      world.disk (storedPath listDir source.name) = some (asBytes text) ∨
        world.disk (storedPath listDir source.name) = none ∧
          ∃ path, source.path = some path ∧ world.disk path = some (asBytes text)

theorem OnDisk.congr {listDir text : Str} {source : Config.ListSource} {world after : World}
    (found : OnDisk listDir source text world)
    (same : ∀ path ∈ readFrom listDir source, after.disk path = world.disk path) :
    OnDisk listDir source text after := by
  simp only [OnDisk, readFrom] at found same ⊢
  cases url : source.url with
  | none =>
      rw [url] at found same
      obtain ⟨path, given, held⟩ := found
      exact ⟨path, given, (same path (by simp [given])).trans held⟩
  | some _ =>
      rw [url] at found same
      dsimp only at found same ⊢
      rw [same _ List.mem_cons_self]
      rcases found with held | ⟨missing, path, given, held⟩
      · exact .inl held
      · exact .inr ⟨missing, path, given, (same path (by simp [given])).trans held⟩

/-! ### Which files a load touches -/

section Files

variable {path listDir : Str} {source : Config.ListSource} {world : World}
  {admits : World → (op : Op) → Reply op → Prop}

theorem all_persist {ok : Op → Prop} {stored etag text : Str} {tag : Option Str}
    (writes : ∀ file ∈ [stored, etag], ∀ bytes, ok (.write (withExtension file "tmp".toList) bytes))
    (renames : ∀ file ∈ [stored, etag], ok (.rename (withExtension file "tmp".toList) file))
    (removes : ok (.remove etag)) : All ok (persist stored etag text tag) := by
  have gone : All ok (remove etag >>= fun _ => pure ()) := ⟨removes, fun _ => trivial⟩
  apply all_bind (all_writeAtomic (writes _ List.mem_cons_self _) (renames _ List.mem_cons_self))
  intro written
  cases written with
  | error err => exact gone
  | ok done =>
      cases tag with
      | none => exact gone
      | some tag =>
          apply all_bind (all_writeAtomic (writes _ (by simp) _) (renames _ (by simp)))
          intro written
          cases written with
          | error err => exact gone
          | ok done => trivial

theorem avoids_of_looks {op : Op} (looks : Looks op) : Avoids path op := by
  cases op with
  | isFile file => exact List.not_mem_nil
  | readToString file => exact List.not_mem_nil
  | touch file => exact List.not_mem_nil
  | ageOf file => exact List.not_mem_nil
  | _ => cases looks

theorem all_fetch {url stored etag : Str}
    (outside : path ∉ [stored, withExtension stored "tmp".toList, etag,
      withExtension etag "tmp".toList]) : All (Avoids path) (fetchWithEtag url stored etag) := by
  simp only [List.mem_cons, List.not_mem_nil, or_false, not_or] at outside
  obtain ⟨body, bodyTmp, tag, tagTmp⟩ := outside
  apply all_bind (all_storedEtag (avoids_of_looks trivial) (avoids_of_looks trivial))
  intro ifNoneMatch
  refine ⟨by simp [Avoids, Op.changes], ?_⟩
  intro reply
  cases reply with
  | error reason => trivial
  | ok response =>
      change All _ (if response.status = 304 then confirm stored else download stored etag response)
      split
      · exact all_confirm (avoids_of_looks trivial) (avoids_of_looks trivial)
      · simp only [download]
        split
        · trivial
        · split
          · trivial
          · apply all_bind
            · apply all_persist
              · intro file member bytes
                simp only [List.mem_cons, List.not_mem_nil, or_false] at member
                rcases member with rfl | rfl <;> simpa [Avoids, Op.changes]
              · intro file member
                simp only [List.mem_cons, List.not_mem_nil, or_false] at member
                simp only [Avoids, Op.changes, List.mem_cons, List.not_mem_nil, or_false, not_or]
                rcases member with rfl | rfl
                · exact ⟨bodyTmp, body⟩
                · exact ⟨tagTmp, tag⟩
              · simpa [Avoids, Op.changes]
            · exact fun _ => trivial

/-- A load changes no file but those its lists are kept in. -/
theorem all_acquire (outside : path ∉ keptIn listDir source) (online : Bool) :
    All (Avoids path) (acquireList source listDir online) := by
  have looks : ∀ op, Looks op → Avoids path op := fun _ => avoids_of_looks
  simp only [acquireList]
  cases address : source.url with
  | none =>
      cases source.path with
      | none => trivial
      | some file => exact all_readList _ _ _ _ (looks _ trivial)
  | some url =>
      simp only [keptIn, address] at outside
      apply all_bind (all_seedOf source fun _ => looks _ trivial)
      intro seed
      cases online with
      | true =>
          apply all_bind (all_fetch outside)
          intro fetched
          cases fetched with
          | ok acquired => trivial
          | error reason =>
              exact all_fallBack source url seed reason (fun _ => looks _ trivial)
                (fun _ => looks _ trivial) (fun _ => looks _ trivial)
      | false =>
          refine ⟨looks _ trivial, ?_⟩
          intro found
          cases found with
          | true => exact all_readStored _ _ _ (looks _ trivial) (looks _ trivial)
          | false =>
              cases seed with
              | none => trivial
              | some seed => exact all_readList _ _ _ _ (looks _ trivial)

theorem all_loadEach {sources : List Config.ListSource}
    (outside : ∀ source ∈ sources, path ∉ keptIn listDir source) (online : Bool)
    (loading : Loading) : All (Avoids path) (loadEach listDir online sources loading) := by
  induction sources generalizing loading with
  | nil => trivial
  | cons source rest ih =>
      apply all_bind (all_acquire (outside source List.mem_cons_self) online)
      intro result
      cases result with
      | error err => trivial
      | ok acquired =>
          dsimp only
          split
          · exact ih (fun other member => outside other (List.mem_cons_of_mem _ member)) _
          · trivial

theorem ensures_untouched {A : Type} {program : Load A} {paths : List Str}
    (all : ∀ path ∈ paths, All (Avoids path) program) (world : World) :
    Ensures effect (.considering admits)
      (fun after _ => ∀ path ∈ paths, after.disk path = world.disk path) program world := by
  induction program generalizing world with
  | done result => exact fun _ _ => rfl
  | perform op next ih =>
      refine ⟨trivial, trivial, ?_⟩
      intro reply middle effected _
      apply ensures_mono _ (ih reply (fun path member => (all path member).2 reply) middle)
      intro after _ same path member
      exact (same path member).trans (effect_frame effected (all path member).1)

/-- Without the network a list is only looked at. -/
theorem looks_acquire : All Looks (acquireList source listDir false) := by
  simp only [acquireList]
  cases source.url with
  | none =>
      cases source.path with
      | none => trivial
      | some file => exact all_readList _ _ _ _ trivial
  | some url =>
      apply all_bind (all_seedOf source fun _ => trivial)
      intro seed
      refine ⟨trivial, ?_⟩
      intro found
      cases found with
      | true => exact all_readStored _ _ _ trivial trivial
      | false =>
          cases seed with
          | none => trivial
          | some seed => exact all_readList _ _ _ _ trivial

theorem ensures_looks {A : Type} {program : Load A} (looks : All Looks program) (world : World) :
    Ensures effect (.considering admits) (fun after _ => after = world) program world := by
  induction program with
  | done result => rfl
  | perform op next ih =>
      refine ⟨trivial, trivial, ?_⟩
      intro reply after effected _
      rw [same_of_looks looks.1 effected]
      exact ih reply (looks.2 reply)

end Files

/-! ### A load on a working disk -/

section Working

variable {stored etag listDir : Str} {source : Config.ListSource} {world : World}

theorem working_readToString {path : Str} {post : World → Except String Str → Prop}
    (failed : ∀ reason, post world (.error reason))
    (found : ∀ text, world.disk path = some (asBytes text) → post world (.ok text)) :
    Ensures effect (.considering Working) post (readToString path) world := by
  refine ⟨trivial, trivial, ?_⟩
  intro reply after effected _
  cases reply with
  | error reason =>
      cases effected
      exact failed reason
  | ok text =>
      obtain ⟨rfl, held⟩ := effect_read effected
      exact found text held

theorem working_writeAtomic {path : Str} {bytes : List UInt8} :
    Ensures effect (.considering Working)
      (fun after result => result = .ok () ∧ after.disk path = some bytes)
      (writeAtomic path bytes) world := by
  refine ⟨trivial, trivial, ?_⟩
  intro reply middle effected written
  cases (show reply = .ok () from written)
  cases effected
  refine ⟨trivial, trivial, ?_⟩
  intro reply after effected renamed
  cases (show reply = .ok () from renamed (by simp))
  obtain ⟨moved, held, rfl⟩ := effect_renamed effected
  rw [World.put_self] at held
  cases held
  exact ⟨rfl, World.change_self ..⟩

/-- The body is stored, and the ETag's fate does not touch it. -/
theorem working_persist {text : Str} {tag : Option Str} (last : stored.getLast? = some 't')
    (tagged : etag.getLast? = some 'g') :
    Ensures effect (.considering Working)
      (fun after _ => after.disk stored = some (asBytes text))
      (persist stored etag text tag) world := by
  have other : stored ≠ etag := by
    intro same
    rw [same, tagged] at last
    exact absurd last (by decide)
  have gone : All (Avoids stored) (remove etag >>= fun _ => pure ()) := by
    refine ⟨?_, fun _ => trivial⟩
    simpa [Avoids, Op.changes] using other
  have stays : ∀ {rest : Load Unit}, All (Avoids stored) rest → ∀ middle : World,
      middle.disk stored = some (asBytes text) → Ensures effect (.considering Working)
        (fun after _ => after.disk stored = some (asBytes text)) rest middle := by
    intro rest all middle held
    have only : ∀ path ∈ [stored], All (Avoids path) rest := by simpa using all
    apply ensures_mono _ (ensures_untouched only middle)
    exact fun after _ same => (same stored List.mem_cons_self).trans held
  apply ensures_bind
  apply ensures_mono _ working_writeAtomic
  intro middle result replaced
  obtain ⟨rfl, held⟩ := replaced
  cases tag with
  | none => exact stays gone middle held
  | some tag =>
      apply stays _ middle held
      apply all_bind
      · apply all_writeAtomic
        · simpa [Avoids, Op.changes] using tmp_ne last (by decide) etag
        · simpa [Avoids, Op.changes] using ⟨tmp_ne last (by decide) etag, other⟩
      · intro written
        cases written with
        | error err => exact gone
        | ok done => trivial

/-- A fetch that succeeds leaves its text as the stored copy. -/
theorem working_fetch (url : Str) (last : stored.getLast? = some 't')
    (tagged : etag.getLast? = some 'g') :
    Ensures effect (.considering Working)
      (fun after result => ∀ acquired, result = .ok acquired →
        after.disk stored = some (asBytes acquired.text))
      (fetchWithEtag url stored etag) world := by
  have any : ∀ middle : World, Ensures effect (.considering Working) (fun _ _ => True)
      (storedEtag stored etag) middle := by
    intro middle
    apply @ensures_of_all _ _ _ _ _ _ (fun _ => True) (fun _ => True)
    · exact fun _ _ => trivial
    · exact fun _ _ _ _ => trivial
    · exact fun _ _ _ _ _ _ _ => trivial
    · exact all_storedEtag trivial trivial
    · trivial
  apply ensures_bind
  apply ensures_mono _ (any world)
  intro asked ifNoneMatch _
  refine ⟨trivial, trivial, ?_⟩
  intro reply middle _ _
  cases reply with
  | error reason => exact fun _ same => nomatch same
  | ok response =>
      change Ensures _ _ _ (if response.status = 304 then confirm stored
        else download stored etag response) _
      split
      · apply ensures_bind
        apply working_readToString
        · exact fun _ _ same => nomatch same
        · intro text held
          refine ⟨trivial, trivial, ?_⟩
          intro touched after effected _
          cases effected
          intro acquired same
          cases same
          exact held
      · simp only [download]
        split
        · exact fun _ same => nomatch same
        · split
          · exact fun _ same => nomatch same
          · apply ensures_bind
            apply ensures_mono _ (working_persist last tagged)
            intro after _ held acquired same
            cases same
            exact held

theorem working_seedOf : Ensures effect (.considering Working)
    (fun after seed => after = world ∧ (∀ path, seed = some path → source.path = some path) ∧
      ∀ path, source.path = some path → (world.disk path).isSome = true → seed = some path)
    (seedOf source) world := by
  simp only [seedOf]
  cases source.path with
  | none =>
      refine ⟨rfl, ?_, ?_⟩
      · intro other same
        cases same
      · intro other same
        cases same
  | some path =>
      refine ⟨trivial, trivial, ?_⟩
      intro found after effected exact_
      obtain ⟨rfl, _⟩ := effect_isFile effected
      cases (show found = (after.disk path).isSome from exact_)
      cases there : (after.disk path).isSome with
      | true => exact ⟨rfl, fun _ same => same, fun _ same _ => same⟩
      | false =>
          refine ⟨rfl, ?_, ?_⟩
          · intro other same
            cases same
          · intro other same held
            cases same
            rw [there] at held
            cases held

/-- A list that is acquired is on disk afterwards. -/
theorem working_acquire : Ensures effect (.considering Working)
    (fun after result => ∀ acquired, result = .ok acquired →
      OnDisk listDir source acquired.text after)
    (acquireList source listDir true) world := by
  simp only [acquireList, OnDisk]
  cases source.url with
  | none =>
      cases source.path with
      | none =>
          intro _ same
          cases same
      | some path =>
          apply ensures_bind
          apply working_readToString
          · intro reason acquired same
            cases same
          · intro text held acquired same
            cases same
            exact ⟨path, rfl, held⟩
  | some url =>
      apply ensures_bind
      apply ensures_mono _ working_seedOf
      intro seeded seed given
      obtain ⟨_, seed_path, _⟩ := given
      apply ensures_bind
      apply ensures_mono _ (working_fetch url (storedPath_last ..) (etagPath_last ..))
      intro fetched result held
      cases result with
      | ok acquired =>
          intro other same
          cases same
          exact .inl (held acquired rfl)
      | error reason =>
          refine ⟨trivial, trivial, ?_⟩
          intro found middle effected exact_
          obtain ⟨rfl, _⟩ := effect_isFile effected
          cases (show found = (middle.disk (storedPath listDir source.name)).isSome from exact_)
          cases there : middle.disk (storedPath listDir source.name) with
          | some bytes =>
              apply ensures_bind
              apply working_readToString
              · intro reason acquired same
                cases same
              · intro text present
                refine ⟨trivial, trivial, ?_⟩
                intro age after effected _
                cases effected
                intro acquired same
                cases same
                exact .inl present
          | none =>
              cases seed with
              | none =>
                  intro _ same
                  cases same
              | some seed =>
                  apply ensures_bind
                  apply working_readToString
                  · intro reason acquired same
                    cases same
                  · intro text present acquired same
                    cases same
                    exact .inr ⟨there, seed, seed_path seed rfl, present⟩

/-- A list that is on disk is acquired without the network. -/
theorem working_offline {text : Str} (found : OnDisk listDir source text world) :
    Ensures effect (.considering Working)
      (fun _ result => ∃ acquired, result = .ok acquired ∧ acquired.text = text)
      (acquireList source listDir false) world := by
  have reads : ∀ {middle : World} {path : Str}
      {rest : Except String Str → Load (Except ListError Acquired)},
      middle.disk path = some (asBytes text) →
      Ensures effect (.considering Working)
        (fun _ result => ∃ acquired, result = .ok acquired ∧ acquired.text = text)
        (rest (.ok text)) middle →
      Ensures effect (.considering Working)
        (fun _ result => ∃ acquired, result = .ok acquired ∧ acquired.text = text)
        (readToString path >>= rest) middle := by
    intro middle path rest held later
    refine ⟨trivial, trivial, ?_⟩
    intro reply after effected readable
    cases (show reply = .ok text from readable text held)
    obtain ⟨rfl, _⟩ := effect_read effected
    exact later
  simp only [OnDisk] at found
  simp only [acquireList]
  cases address : source.url with
  | none =>
      rw [address] at found
      obtain ⟨path, given, held⟩ := found
      rw [given]
      exact reads held ⟨_, rfl, rfl⟩
  | some url =>
      rw [address] at found
      dsimp only at found
      apply ensures_bind
      apply ensures_mono _ working_seedOf
      intro seeded seed given
      obtain ⟨rfl, _, seed_found⟩ := given
      refine ⟨trivial, trivial, ?_⟩
      intro there middle effected exact_
      obtain ⟨rfl, _⟩ := effect_isFile effected
      cases (show there = (middle.disk (storedPath listDir source.name)).isSome from exact_)
      rcases found with held | ⟨missing, path, given, held⟩
      · rw [held]
        apply reads held
        exact ⟨trivial, trivial, fun _ _ _ _ => ⟨_, rfl, rfl⟩⟩
      · rw [missing]
        cases seed_found path given (by rw [held]; rfl)
        exact reads held ⟨_, rfl, rfl⟩

/-- Every operation has a reply of a working disk. -/
theorem working_replies (world : World) (op : Op) :
    ∃ reply after, effect world op reply = some after ∧ Working world op reply := by
  cases op with
  | isFile path =>
      refine ⟨(world.disk path).isSome, world, ?_, rfl⟩
      cases held : world.disk path <;> simp [effect, held]
  | readToString path =>
      by_cases readable : ∃ text, world.disk path = some (asBytes text)
      · obtain ⟨text, held⟩ := readable
        refine ⟨.ok text, world, by simp [effect, held], ?_⟩
        intro other same
        rw [held] at same
        rw [asBytes_injective (Option.some.inj same)]
      · exact ⟨.error "invalid", world, rfl, fun text held => absurd ⟨text, held⟩ readable⟩
  | send url ifNoneMatch => exact ⟨.error "timeout", _, rfl, trivial⟩
  | touch path => exact ⟨.ok (), world, rfl, trivial⟩
  | ageOf path => exact ⟨none, world, rfl, trivial⟩
  | write path bytes => exact ⟨.ok (), _, rfl, rfl⟩
  | rename source target =>
      cases held : world.disk source with
      | some bytes =>
          refine ⟨.ok (), (world.put source none).change target (some bytes), ?_, fun _ => rfl⟩
          simp [effect, held]
      | none =>
          refine ⟨.error "not found", world, rfl, ?_⟩
          intro present
          rw [held] at present
          cases present
  | remove path => exact ⟨.error "not found", world, rfl, trivial⟩

end Working

/-! ### The same lists again -/

def counts (report : Daemon.ListReport) : Str × Nat × Nat :=
  (report.name, report.rules, report.issues)

/-- Two loads alike but for where the texts came from. -/
structure Loading.Alike (first second : Loading) : Prop where
  builder : first.builder = second.builder
  names : first.names = second.names
  hashed : first.hashed = second.hashed
  issues : first.issues = second.issues
  reports : first.reports.map counts = second.reports.map counts

structure LoadedLists.Rebuilt (loaded again : LoadedLists) : Prop where
  engine : again.engine = loaded.engine
  names : again.names = loaded.names
  hash : again.hash = loaded.hash
  issues : again.issues = loaded.issues
  reports : again.reports.map counts = loaded.reports.map counts

section Again

variable {sort : UnstableSort} {sha256 : List UInt8 → List UInt8} {listDir : Str}
  {sources : List Config.ListSource} {world : World}

theorem Loading.Alike.add {first second next : Loading} {name : Str} {acquired other : Acquired}
    (alike : first.Alike second) (same : acquired.text = other.text)
    (added : first.add name acquired = some next) :
    ∃ also, second.add name other = some also ∧ next.Alike also := by
  simp only [Loading.add] at added ⊢
  obtain ⟨builder, built, same_next⟩ := Option.bind_eq_some_iff.mp added
  cases same_next
  rw [← alike.builder, ← same, built]
  refine ⟨_, rfl, rfl, ?_, ?_, ?_, ?_⟩
  · rw [alike.names]
  · rw [alike.hashed]
  · rw [alike.issues]
  · rw [List.map_append, List.map_append, alike.reports]
    rfl

theorem Loading.Alike.finish {first second : Loading} {loaded : LoadedLists}
    (alike : first.Alike second) (finished : first.finish sort sha256 = some loaded) :
    ∃ again, second.finish sort sha256 = some again ∧ loaded.Rebuilt again := by
  simp only [Loading.finish] at finished ⊢
  obtain ⟨engine, built, same⟩ := Option.bind_eq_some_iff.mp finished
  cases same
  rw [← alike.builder, built]
  refine ⟨_, rfl, rfl, alike.names.symm, ?_, alike.issues.symm, alike.reports.symm⟩
  rw [alike.hashed]

/-- Each source with the name and text it was loaded under, as the disk has it. -/
def FoundOnDisk (listDir : Str) (world : World) :
    List Config.ListSource → List (Str × Acquired) → Prop :=
  List.Forall₂ fun source list =>
    list.1 = source.name ∧ OnDisk listDir source list.2.text world

/-- A completed load leaves all of its lists on disk. -/
theorem working_loadEach (apart : Apart listDir sources) (loading : Loading) :
    Ensures effect (.considering Working)
      (fun after result => ∀ final, result = .ok (some final) → ∃ acquired,
        loading.addAll acquired = some final ∧ FoundOnDisk listDir after sources acquired)
      (loadEach listDir true sources loading) world := by
  induction sources generalizing loading world with
  | nil =>
      intro final same
      cases same
      exact ⟨[], rfl, .nil⟩
  | cons source rest ih =>
      obtain ⟨first, others⟩ := List.pairwise_cons.mp apart
      apply ensures_bind
      apply ensures_mono _ working_acquire
      intro middle result found
      cases result with
      | error err => exact fun _ same => nomatch same
      | ok acquired =>
          dsimp only
          cases more : loading.add source.name acquired with
          | none => exact fun _ same => nomatch same
          | some next =>
              have untouched : Ensures effect (.considering Working)
                  (fun after _ => ∀ path ∈ readFrom listDir source,
                    after.disk path = middle.disk path)
                  (loadEach listDir true rest next) middle := by
                apply ensures_untouched
                intro path member
                exact all_loadEach (fun other later => first other later path member) true next
              apply ensures_mono _ (ensures_both (ih others next) untouched)
              intro after result both final same
              obtain ⟨lists, added, there⟩ := both.1 final same
              refine ⟨(source.name, acquired) :: lists, ?_, .cons ⟨rfl, ?_⟩ there⟩
              · rw [Loading.addAll, List.foldlM_cons, more]
                exact added
              · exact (found acquired rfl).congr both.2

/-- Whatever the disk replies, a load without the network asks nobody and changes nothing. -/
theorem offline_same {admits : World → (op : Op) → Reply op → Prop} (loading : Loading) :
    Ensures effect (.considering admits) (fun after _ => after = world)
      (loadEach listDir false sources loading) world := by
  have looks : All Looks (loadEach listDir false sources loading) := by
    induction sources generalizing loading with
    | nil => trivial
    | cons source rest ih =>
        apply all_bind looks_acquire
        intro result
        cases result with
        | error err => trivial
        | ok acquired =>
            dsimp only
            split
            · exact ih _
            · trivial
  exact ensures_looks looks world

theorem offline_loadEach {acquired : List (Str × Acquired)}
    (found : FoundOnDisk listDir world sources acquired) {loading other final : Loading}
    (alike : loading.Alike other) (added : loading.addAll acquired = some final) :
    Ensures effect (.considering Working)
      (fun _ result => ∃ again, result = .ok (some again) ∧ final.Alike again)
      (loadEach listDir false sources other) world := by
  induction found generalizing loading other with
  | nil =>
      cases added
      exact ⟨other, rfl, alike⟩
  | @cons source list sources lists here there ih =>
      rw [Loading.addAll, List.foldlM_cons] at added
      obtain ⟨next, more, added⟩ := Option.bind_eq_some_iff.mp added
      apply ensures_bind
      apply ensures_mono _ (ensures_both (working_offline here.2) (ensures_looks looks_acquire _))
      intro middle result both
      obtain ⟨⟨text, rfl, same⟩, rfl⟩ := both
      obtain ⟨also, again, alike_next⟩ := alike.add same.symm more
      rw [here.1] at again
      dsimp only
      rw [again]
      exact ih alike_next added

theorem working_load (apart : Apart listDir sources) :
    Ensures effect (.considering Working)
      (fun after result => ∀ loaded, result = .ok (some loaded) → ∃ acquired final,
        Loading.start.addAll acquired = some final ∧ final.finish sort sha256 = some loaded ∧
          FoundOnDisk listDir after sources acquired)
      (load sort sha256 sources listDir true) world := by
  apply ensures_bind
  apply ensures_mono _ (working_loadEach apart .start)
  intro after result found
  cases result with
  | error err => exact fun _ same => nomatch same
  | ok loading =>
      intro loaded same
      obtain ⟨final, rfl, finished⟩ := Option.bind_eq_some_iff.mp (Except.ok.inj same)
      obtain ⟨acquired, added, there⟩ := found final rfl
      exact ⟨acquired, final, added, finished, there⟩

theorem offline_load {acquired : List (Str × Acquired)} {final : Loading} {loaded : LoadedLists}
    (found : FoundOnDisk listDir world sources acquired)
    (added : Loading.start.addAll acquired = some final)
    (finished : final.finish sort sha256 = some loaded) :
    Ensures effect (.considering Working)
      (fun after result => after = world ∧
        ∃ again, result = .ok (some again) ∧ loaded.Rebuilt again)
      (load sort sha256 sources listDir false) world := by
  have itself : Loading.start.Alike .start := ⟨rfl, rfl, rfl, rfl, rfl⟩
  apply ensures_bind
  apply ensures_mono _ (ensures_both (offline_loadEach found itself added) (offline_same .start))
  intro after result both
  obtain ⟨⟨loading, rfl, alike⟩, same⟩ := both
  obtain ⟨again, rebuilt⟩ := alike.finish finished
  refine ⟨same, again, ?_, rebuilt.2⟩
  rw [Option.bind_some, rebuilt.1]

end Again

/-- Start-up: the stored copies, and the network only if they are not complete. -/
def loadAtStart (sort : UnstableSort) (sha256 : List UInt8 → List UInt8)
    (sources : List Config.ListSource) (listDir : Str) :
    Load (Except ListError (Option LoadedLists)) := do
  match ← load sort sha256 sources listDir false with
  | .ok loaded => return .ok loaded
  | .error _ => load sort sha256 sources listDir true

/-- After a load with the network, on a disk that works, the daemon starts again without the
network: from the stored copies and seeds it builds the same engine, under the same names,
hash and counts, and the disk stays as it is. -/
theorem restart_rebuilds {sort : UnstableSort} {sha256 : List UInt8 → List UInt8}
    {sources : List Config.ListSource} {listDir : Str} (apart : Apart listDir sources)
    {world after : World} {loaded : LoadedLists}
    (loads : Returns effect Working world (load sort sha256 sources listDir true) after
      (.ok (some loaded))) :
    (∃ last result, Returns effect Working after (loadAtStart sort sha256 sources listDir) last
        result) ∧
      ∀ last result, Returns effect Working after (loadAtStart sort sha256 sources listDir) last
        result → last = after ∧ ∃ again, result = .ok (some again) ∧ loaded.Rebuilt again := by
  refine ⟨returns_some working_replies _ after, ?_⟩
  intro last result starts
  obtain ⟨acquired, final, added, finished, found⟩ :=
    post_of_returns (working_load apart) loads loaded rfl
  have ensured : Ensures effect (.considering Working)
      (fun last result => last = after ∧ ∃ again, result = .ok (some again) ∧ loaded.Rebuilt again)
      (loadAtStart sort sha256 sources listDir) after := by
    apply ensures_bind
    apply ensures_mono _ (offline_load found added finished)
    intro middle result both
    obtain ⟨rfl, again, rfl, rebuilt⟩ := both
    exact ⟨rfl, again, rfl, rebuilt⟩
  have both := post_of_returns ensured starts
  exact both

section Samples

/-- A working disk, and a network where every host answers with this text. -/
def answering (body : Str) (world : World) : ∀ op, Reply op
  | .isFile path => (world.disk path).isSome
  | .readToString path =>
      match (world.disk path).bind fromUtf8 with
      | some text => .ok text
      | none => .error "No such file or directory (os error 2)"
  | .send _ _ => .ok {
      status := 200
      statusText := "200 OK"
      contentLength := none
      etag := none
      chunks := [asBytes body]
      failed := none }
  | .touch _ => .ok ()
  | .ageOf _ => none
  | .write _ _ => .ok ()
  | .rename source _ =>
      if (world.disk source).isSome then .ok ()
      else .error "No such file or directory (os error 2)"
  | .remove path =>
      if (world.disk path).isSome then .ok ()
      else .error "No such file or directory (os error 2)"

theorem answering_working (body : Str) (world : World) (op : Op) :
    Working world op (answering body world op) := by
  cases op with
  | isFile path => rfl
  | readToString path =>
      intro text held
      simp only [answering]
      rw [held, Option.bind_some, fromUtf8_asBytes]
  | write path bytes => rfl
  | rename source target => exact fun present => if_pos present
  | _ => trivial

def fetchedAndLocal : List Config.ListSource :=
  [{ name := "ads".toList, url := some "https://lists.example/ads.txt".toList, path := none },
    { name := "mine".toList, url := none, path := some "/etc/sumidero/mine.txt".toList }]

/-- Nothing is stored yet; the local list is there. -/
def firstStart : World where
  disk := fun path =>
    if path = "/etc/sumidero/mine.txt".toList then some (asBytes "@@||ok.ads.com^\n".toList)
    else none
  asked := none
  served := []
  changes := []

/-- The first load: one list is downloaded, the other one read. -/
theorem first_load : ∃ after loaded,
    Returns effect Working firstStart
      (load .insertion id fetchedAndLocal "/var/lib/sumidero".toList true) after
      (.ok (some loaded)) ∧
    loaded.names = ["ads".toList, "mine".toList] ∧
    loaded.hash = hexEncode (asBytes "||ads.com^\n@@||ok.ads.com^\n".toList) := by
  have ends : ((attend effect (answering "||ads.com^\n".toList) firstStart
      (load .insertion id fetchedAndLocal "/var/lib/sumidero".toList true)).map fun ended =>
        ended.2.toOption.join.map fun loaded => (loaded.names, loaded.hash)) =
      some (some (["ads".toList, "mine".toList],
        hexEncode (asBytes "||ads.com^\n@@||ok.ads.com^\n".toList))) := by decide +kernel
  obtain ⟨⟨after, result⟩, attended, named⟩ := Option.map_eq_some_iff.mp ends
  obtain ⟨loaded, some_loaded, parts⟩ := Option.map_eq_some_iff.mp named
  obtain ⟨names, hash⟩ := Prod.mk.inj parts
  have finished : result = .ok (some loaded) := by
    cases result with
    | error err => cases some_loaded
    | ok given =>
        cases given with
        | none => cases some_loaded
        | some other =>
            cases some_loaded
            rfl
  have loads := returns_of_attend (answering_working "||ads.com^\n".toList) attended
  rw [finished] at loads
  exact ⟨after, loaded, loads, names, hash⟩

theorem restart_rebuilds_first : ∃ after loaded,
    Returns effect Working firstStart
      (load .insertion id fetchedAndLocal "/var/lib/sumidero".toList true) after
      (.ok (some loaded)) ∧
    loaded.names = ["ads".toList, "mine".toList] ∧
    ∀ last result, Returns effect Working after
      (loadAtStart .insertion id fetchedAndLocal "/var/lib/sumidero".toList) last result →
        last = after ∧ ∃ again, result = .ok (some again) ∧ loaded.Rebuilt again := by
  obtain ⟨after, loaded, loads, names, _⟩ := first_load
  exact ⟨after, loaded, loads, names, (restart_rebuilds (by decide) loads).2⟩

end Samples

end Sumidero.Lists
