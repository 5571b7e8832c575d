/-
Clients of a service, and what they are told of an export.

Any number of clients put jobs in, have records processed, have scans made and ask where jobs stand.
Their calls and the workers of the pool act between one another's steps, and a call of a store is
one step (`Clients.replay`). What clients hand in are copies of what the store has held at some
time, however old (`Clients.Faithful`). In such a run every call keeps to what it assures
(`Clients.Keeping.replay`).

So an export that has been put in is in the store or has a file from then on; no status tells that
it has failed, and once a status has told that it has been completed, those that are asked for later
tell the same (`Clients.export_never_failed`).
-/

import JobQueue.Proofs.Engine.Callers
import JobQueue.Proofs.Engine.Custody

namespace JobQueue

variable {W C : Type}

/-! ### Calls -/

/-- What a client asks for. -/
inductive Ask where
  | enqueue (name description : String) (payload : Json)
  | process (r : JobRecord)
  | processAll (records : List JobRecord)
  | processConcurrently (records : List JobRecord)
  | scan
  | status (id : String)

/-- What a client is told at the end of its call. -/
inductive Answer where
  | enqueued (result : Except (Fault JobError) JobRecord)
  | processed (ended : Ended)
  | processedAll (outcome : Except Crash (List JobResult))
  | scanned (result : Except (Fault JobError) ScanReport)
  | status (result : Except (Fault JobError) JobStatus)

namespace Ask

/-- The call that does what is asked for. -/
def task (p : Processor W) : Ask → Task (Engine W) Answer
  | .enqueue name description v =>
      (Engine.onWorld (p.enqueue name description v).run).bind fun result =>
        .done (.enqueued result)
  | .process r => (Engine.processOne p r).bind fun ended => .done (.processed ended)
  | .processAll records =>
      (Engine.processAll p records).bind fun outcome => .done (.processedAll outcome)
  | .processConcurrently records =>
      (Engine.processConcurrently p records).bind fun outcome => .done (.processedAll outcome)
  | .scan => (Scanner.scanOnce p).run.bind fun result => .done (.scanned result)
  | .status id => (Engine.onWorld (p.status id).run).bind fun result => .done (.status result)

/-- The records that are handed in. -/
def records : Ask → List JobRecord
  | .process r => [r]
  | .processAll records | .processConcurrently records => records
  | .enqueue .. | .scan | .status _ => []

end Ask

/-- Clients of one engine: what they have asked for, and what is left of their calls. -/
structure Clients (W : Type) extends Callers W Answer where
  asks : List Ask

namespace Clients

/-- What can happen next among clients. -/
inductive Move where
  /-- A client asks for something. -/
  | ask (a : Ask)
  /-- A step of a call, or an event inside the pool. -/
  | go (move : Callers.Move)

/-- A service that nobody has asked anything. -/
def start (p : Processor W) (world : W) : Clients W := ⟨⟨Engine.start p world, []⟩, []⟩

/-- The world that the clients share. -/
def world (c : Clients W) : W := c.engine.world

/-- What the client of a call has been told, if the call has ended. -/
def answer? (c : Clients W) (i : Nat) : Option Answer :=
  match c.tasks[i]? with
  | some (.done answer) => some answer
  | _ => none

/-- The clients after a move, if the move can happen. -/
def step (p : Processor W) (c : Clients W) : Move → Option (Clients W)
  | .ask a => some ⟨⟨c.engine, c.tasks ++ [a.task p]⟩, c.asks ++ [a]⟩
  | .go move => (c.toCallers.step p.executor move).map fun callers => ⟨callers, c.asks⟩

/-- The clients after a list of moves, if each of them can happen in its turn. -/
def replay (p : Processor W) : Clients W → List Move → Option (Clients W)
  | c, [] => some c
  | c, move :: rest => (c.step p move).bind fun c => replay p c rest

/-- Whether what is handed in are copies: each record has the payload that the store held under its
id in one of the worlds that there have been. -/
def Faithful (archive : Archive W C) (p : Processor W) : List W → Clients W → List Move → Prop
  | _, _, [] => True
  | seen, c, move :: rest =>
      (∀ a, move = .ask a → ∀ r ∈ a.records, ∃ w ∈ seen, archive.text? w r.id = some r.payload) ∧
        ∀ c', c.step p move = some c' → Faithful archive p (c'.world :: seen) c' rest

variable {archive : Archive W C} {wanted : String → Prop} {p : Processor W} {c c' : Clients W}
  {move : Move} {moves rest : List Move} {seen : List W} {goal : Ask → Answer → W → Prop}
  {fact : W → Prop} {first : Nat}

/-- Where nothing is handed in, nothing has to be a copy. -/
theorem faithful_of_nothing (nothing : ∀ a, .ask a ∈ moves → a.records = []) :
    Faithful archive p seen c moves := by
  induction moves generalizing c seen with
  | nil => trivial
  | cons move rest ih =>
      refine ⟨?_, fun c' _ => ih fun a member => nothing a (List.mem_cons_of_mem _ member)⟩
      rintro a rfl r member
      rw [nothing a List.mem_cons_self] at member
      cases member

/-- A run is faithful if it is up to some state and from there on. -/
theorem Faithful.append (here : c.world ∈ seen) (before : Faithful archive p seen c moves)
    (after : ∀ seen' c', c.replay p moves = some c' → c'.world ∈ seen' →
      Faithful archive p seen' c' rest) : Faithful archive p seen c (moves ++ rest) := by
  induction moves generalizing c seen with
  | nil => exact after seen c rfl here
  | cons move moves ih =>
      obtain ⟨copies, before⟩ := before
      refine ⟨copies, fun c' goes => ih List.mem_cons_self (before c' goes) ?_⟩
      intro seen' c'' run there
      refine after seen' c'' ?_ there
      rw [replay, goes, Option.bind_some]
      exact run

/-! ### What calls keep to -/

/-- Where the clients stand: their pool is trusty, all that has been seen has led onward to what is
there, and the calls from some number on assure what is expected of them. -/
structure Keeping (archive : Archive W C) (wanted : String → Prop)
    (goal : Ask → Answer → W → Prop) (first : Nat) (seen : List W) (c : Clients W) : Prop where
  trusty : c.engine.pool.Trusty archive wanted
  since : ∀ w ∈ seen, archive.Sound w ∧ archive.Onward wanted w c.world
  paired : c.tasks.length = c.asks.length
  calls : ∀ (i : Nat) (a : Ask) (t : Task (Engine W) Answer), c.asks[i]? = some a →
    c.tasks[i]? = some t → t.Assures (Engine.Onward archive wanted)
      (fun answer e => first ≤ i → goal a answer e.world) c.engine

/-- What may be expected of the calls that begin while a fact stands. -/
structure Expected (archive : Archive W C) (wanted : String → Prop) (p : Processor W)
    (fact : W → Prop) (goal : Ask → Answer → W → Prop) : Prop where
  stands : ∀ w w', fact w → archive.Onward wanted w w' → fact w'
  lasts : ∀ a answer w w', goal a answer w → archive.Onward wanted w w' → goal a answer w'
  begins : ∀ (a : Ask) (e : Engine W), fact e.world → archive.Sound e.world →
    (∀ r ∈ a.records, archive.Knows e.world r) →
    (a.task p).Assures (Engine.Onward archive wanted) (fun answer e => goal a answer e.world) e

theorem keeping_start {world : W} (sound : archive.Sound world) :
    Keeping archive wanted goal first [world] (start p world) where
  trusty := Pool.trusty_start sound
  since := by
    intro w there
    cases List.mem_singleton.mp there
    exact ⟨sound, .refl sound⟩
  paired := rfl
  calls := nofun

/-- What a call has been told is as expected. -/
theorem Keeping.told {i : Nat} {a : Ask} {answer : Answer}
    (keeping : Keeping archive wanted goal first seen c) (asked : c.asks[i]? = some a)
    (answered : c.answer? i = some answer) (later : first ≤ i) : goal a answer c.world := by
  rw [answer?] at answered
  split at answered
  next answer' here =>
    cases answered
    exact keeping.calls i a _ asked here later
  next => cases answered

/-- Of calls that have begun nothing more need be expected than before. -/
theorem Keeping.restart {goal' : Ask → Answer → W → Prop}
    (keeping : Keeping archive wanted goal first seen c) :
    Keeping archive wanted goal' c.asks.length seen c where
  trusty := keeping.trusty
  since := keeping.since
  paired := keeping.paired
  calls := by
    intro i a t asked here
    refine (keeping.calls i a t asked here).mono fun _ _ _ late => ?_
    exact absurd (List.getElem?_eq_some_iff.mp asked).1 (Nat.not_lt.mpr late)

/-- What leads the engine onward and leaves the calls assuring what is expected of them keeps the
clients. -/
theorem Keeping.next (keeping : Keeping archive wanted goal first seen c) (c' : Clients W)
    (onward : Engine.Onward archive wanted c.engine c'.engine)
    (paired : c'.tasks.length = c'.asks.length)
    (calls : ∀ (i : Nat) (a : Ask) (t : Task (Engine W) Answer), c'.asks[i]? = some a →
      c'.tasks[i]? = some t → t.Assures (Engine.Onward archive wanted)
        (fun answer e => first ≤ i → goal a answer e.world) c'.engine) :
    Keeping archive wanted goal first (c'.world :: seen) c' where
  trusty := onward.trusty
  since := by
    intro w there
    rcases List.mem_cons.mp there with rfl | before
    · exact ⟨onward.trusty.sound, .refl onward.trusty.sound⟩
    · exact ⟨(keeping.since w before).1, (keeping.since w before).2.trans onward.world⟩
  paired := paired
  calls := calls

section

variable (expected : Expected archive wanted p fact goal)

include expected

/-- A call goes on assuring what it does when others lead its engine onward. -/
theorem Expected.later {e e' : Engine W} {i : Nat} {a : Ask} {t : Task (Engine W) Answer}
    (assures : t.Assures (Engine.Onward archive wanted)
      (fun answer e => first ≤ i → goal a answer e.world) e)
    (onward : Engine.Onward archive wanted e e') : t.Assures (Engine.Onward archive wanted)
      (fun answer e => first ≤ i → goal a answer e.world) e' :=
  assures.later Engine.Onward.trans
    (fun done since late => expected.lasts _ _ _ _ (done late) since.world) onward

/-- A new call does what is expected of it, if what is handed in are copies. -/
theorem Keeping.ask {a : Ask} (keeping : Keeping archive wanted goal first seen c)
    (stands : fact c.world)
    (copies : ∀ r ∈ a.records, ∃ w ∈ seen, archive.text? w r.id = some r.payload) :
    Keeping archive wanted goal first (c.world :: seen)
      ⟨⟨c.engine, c.tasks ++ [a.task p]⟩, c.asks ++ [a]⟩ := by
  have known : ∀ r ∈ a.records, archive.Knows c.world r := by
    intro r member
    obtain ⟨w, before, kept⟩ := copies r member
    obtain ⟨sound, onward⟩ := keeping.since w before
    exact (sound.knows kept).onward onward
  refine keeping.next ⟨⟨c.engine, c.tasks ++ [a.task p]⟩, c.asks ++ [a]⟩ (.refl keeping.trusty)
    (by simp [keeping.paired]) ?_
  intro i a' t asked here
  rcases Nat.lt_or_ge i c.asks.length with old | new
  · rw [List.getElem?_append_left old] at asked
    rw [List.getElem?_append_left (keeping.paired ▸ old)] at here
    exact keeping.calls i a' t asked here
  · rw [List.getElem?_append_right new] at asked
    rw [List.getElem?_append_right (keeping.paired ▸ new), keeping.paired] at here
    cases List.mem_singleton.mp (List.mem_of_getElem? asked)
    cases List.mem_singleton.mp (List.mem_of_getElem? here)
    exact (expected.begins a c.engine stands keeping.trusty.sound known).mono
      fun _ _ done _ => done

/-- A step of one call leaves all calls doing what is expected of them. -/
theorem Keeping.call {i : Nat} {came : Bool} {t t' : Task (Engine W) Answer} {engine : Engine W}
    (keeping : Keeping archive wanted goal first seen c) (here : c.tasks[i]? = some t)
    (able : Callers.canStep came t c.engine = true)
    (takes : t.step came c.engine = some (t', engine)) :
    Keeping archive wanted goal first (engine.world :: seen) ⟨⟨engine, c.tasks.set i t'⟩, c.asks⟩ ∧
      Engine.Onward archive wanted c.engine engine := by
  obtain ⟨inside, _⟩ := List.getElem?_eq_some_iff.mp here
  have matched : i < c.asks.length := keeping.paired ▸ inside
  have asked : c.asks[i]? = some c.asks[i] := List.getElem?_eq_getElem matched
  have ends : ∀ ready limit next, t = .wait ready limit next → came = true →
      ready c.engine = true := by
    rintro ready limit next rfl rfl
    simpa [Callers.canStep] using able
  obtain ⟨onward, own⟩ :=
    (keeping.calls i _ t asked here).step (.refl keeping.trusty) ends takes
  refine ⟨keeping.next ⟨⟨engine, c.tasks.set i t'⟩, c.asks⟩ onward (by simp [keeping.paired]) ?_,
    onward⟩
  intro j a t'' asked' here'
  by_cases same : j = i
  · subst same
    cases asked.symm.trans asked'
    dsimp only at here'
    rw [List.getElem?_set_self inside] at here'
    cases here'
    exact own
  · rw [List.getElem?_set_ne (Ne.symm same)] at here'
    exact expected.later (keeping.calls j a t'' asked' here') onward

variable (attends : p.Attends archive wanted)

include attends

/-- A move keeps the clients to what is expected of their calls. -/
theorem Keeping.step (keeping : Keeping archive wanted goal first seen c) (stands : fact c.world)
    (copies : ∀ a, move = .ask a → ∀ r ∈ a.records,
      ∃ w ∈ seen, archive.text? w r.id = some r.payload)
    (goes : c.step p move = some c') :
    Keeping archive wanted goal first (c'.world :: seen) c' ∧
      archive.Onward wanted c.world c'.world := by
  cases move with
  | ask a =>
      cases goes
      exact ⟨keeping.ask expected stands (copies a rfl), .refl keeping.trusty.sound⟩
  | go move =>
      obtain ⟨callers, moved, rfl⟩ := Option.map_eq_some_iff.mp goes
      cases Callers.step_eq_some_iff.mp moved with
      | pool inner rule =>
          have onward : Engine.Onward archive wanted c.engine (c.engine.setPool _) :=
            ⟨keeping.trusty.step attends.executor rule inner, keeping.trusty.onward_step rule⟩
          exact ⟨keeping.next _ onward keeping.paired fun i a t asked here =>
            expected.later (keeping.calls i a t asked here) onward, onward.world⟩
      | call here able takes =>
          obtain ⟨keeps, onward⟩ := keeping.call expected here able takes
          exact ⟨keeps, onward.world⟩

/-- A faithful run keeps the clients to what is expected of their calls. -/
theorem Keeping.replay (keeping : Keeping archive wanted goal first seen c) (stands : fact c.world)
    (faithful : Faithful archive p seen c (moves ++ rest)) (run : c.replay p moves = some c') :
    ∃ seen', Keeping archive wanted goal first seen' c' ∧ fact c'.world ∧
      archive.Onward wanted c.world c'.world ∧ Faithful archive p seen' c' rest := by
  induction moves generalizing c seen with
  | nil =>
      cases run
      exact ⟨seen, keeping, stands, .refl keeping.trusty.sound, faithful⟩
  | cons move moves ih =>
      obtain ⟨middle, goes, run⟩ := Option.bind_eq_some_iff.mp run
      obtain ⟨copies, faithful⟩ := faithful
      obtain ⟨keeping', onward⟩ := keeping.step expected attends stands copies goes
      obtain ⟨seen', keeps, fact', onward', faithful'⟩ :=
        ih keeping' (expected.stands _ _ stands onward) (faithful middle goes) run
      exact ⟨seen', keeps, fact', onward.trans onward', faithful'⟩

end

/-! ### What is told of an export -/

section

variable {id text : String} (attends : p.Attends archive wanted)

include attends

/-- Whatever is asked for leads onward. -/
theorem assures_task {a : Ask} {e : Engine W} (sound : archive.Sound e.world)
    (known : ∀ r ∈ a.records, archive.Knows e.world r) :
    (a.task p).Assures (Engine.Onward archive wanted) (fun _ _ => True) e := by
  cases a with
  | enqueue name description v =>
      exact (Engine.assures_onWorld attends.assures_enqueue.steps).bind fun _ _ _ => trivial
  | process r =>
      have knows := known r List.mem_cons_self
      exact (Engine.assures_onWorld (attends.executor.assures_run knows)).bind fun _ _ _ => trivial
  | processAll records =>
      exact (Engine.assures_processAll attends sound known).bind fun _ _ _ => trivial
  | processConcurrently records =>
      exact (Engine.assures_processConcurrently attends sound known).bind fun _ _ _ => trivial
  | scan => exact (Engine.assures_scanOnce attends sound).steps.bind fun _ _ _ => trivial
  | status id =>
      exact (Engine.assures_onWorld attends.assures_status.steps).bind fun _ _ _ => trivial

end

/-- What is told of a new job: it is minded. -/
def NewMinded (archive : Archive W C) (wanted : String → Prop) : Ask → Answer → W → Prop
  | .enqueue _ _ v, .enqueued (.ok r), w => archive.Minds wanted v.compact w r.id
  | _, _, _ => True

/-- What statuses tell of a job whose file is wanted: not that it has failed, and that it has been
completed only when it has gone and its file is there. -/
def Unfailed (archive : Archive W C) (id : String) : Ask → Answer → W → Prop
  | .status asked, .status (.ok status), w =>
      asked = id → status ≠ .failed ∧ (status = .completed → archive.Delivered w id)
  | _, _, _ => True

/-- What statuses tell of a job that has gone and has a file: that it has been completed. -/
def Completed (id : String) : Ask → Answer → W → Prop
  | .status asked, .status (.ok status), _ => asked = id → status = .completed
  | _, _, _ => True

section

variable {id text : String} (attends : p.Attends archive wanted)

include attends

theorem expected_newMinded :
    Expected archive wanted p (fun _ => True) (NewMinded archive wanted) where
  stands := fun _ _ _ _ => trivial
  lasts := by
    intro a answer w w' told onward
    unfold NewMinded at told ⊢
    split
    · exact told.onward onward
    · trivial
  begins := by
    intro a e _ sound known
    cases a with
    | enqueue name description v =>
        refine (Engine.assures_onWorld attends.assures_enqueue.steps).bind ?_
        rintro (fault | r) e' minds
        · trivial
        · exact minds r rfl
    | _ => exact (assures_task attends sound known).mono fun _ _ _ => trivial

theorem expected_unfailed (want : wanted text) :
    Expected archive wanted p (fun w => archive.Minds wanted text w id) (Unfailed archive id) where
  stands := fun _ _ minds onward => minds.onward onward
  lasts := by
    intro a answer w w' told onward
    unfold Unfailed at told ⊢
    split
    · exact fun same => ⟨(told same).1, fun completed => ((told same).2 completed).onward onward⟩
    · trivial
  begins := by
    intro a e minds sound known
    cases a with
    | status asked =>
        refine (Engine.assures_onWorld attends.assures_status.steps).bind ?_
        rintro (fault | status) e' seen
        · trivial
        · rintro rfl
          exact (seen status rfl).of_minds minds want
    | _ => exact (assures_task attends sound known).mono fun _ _ _ => trivial

theorem expected_completed :
    Expected archive wanted p (fun w => archive.Delivered w id) (Completed id) where
  stands := fun _ _ delivered onward => delivered.onward onward
  lasts := by
    intro a answer w w' told _
    unfold Completed at told ⊢
    split
    · exact told
    · trivial
  begins := by
    intro a e delivered sound known
    cases a with
    | status asked =>
        refine (Engine.assures_onWorld attends.assures_status.steps).bind ?_
        rintro (fault | status) e' seen
        · trivial
        · rintro rfl
          exact (seen status rfl).of_delivered delivered
    | _ => exact (assures_task attends sound known).mono fun _ _ _ => trivial

end

/-- What becomes of a job with this payload, and what is told of it: after `s₁` its record is in the
store or it has a file, no status that is asked for tells that it has failed, and after `s₂`, if a
status has told then that it has been completed, all tell so. -/
structure NeverFails (archive : Archive W C) (id text : String) (s₁ s₂ s : Clients W) : Prop where
  there : archive.text? s.world id = some text ∨ archive.HasFile s.world id
  unfailed : ∀ j status, s₁.asks.length ≤ j → s.asks[j]? = some (.status id) →
    s.answer? j = some (.status (.ok status)) → status ≠ .failed
  completed : ∀ k j status, s₁.asks.length ≤ k → s₂.asks[k]? = some (.status id) →
    s₂.answer? k = some (.status (.ok .completed)) → s₂.asks.length ≤ j →
    s.asks[j]? = some (.status id) → s.answer? j = some (.status (.ok status)) →
    status = .completed

/-- An export is never reported as failed. Any number of clients share a service with the built-in
handlers and with a store of files, and any call of the stores may fail. When a job that asks for
an export has been put in, its record is in the store or it has a file from then on, no status
tells that it has failed, and after a status has told that it has been completed, all tell so. -/
theorem export_never_failed {settings : JobsSettings} {stores : Stores W} {clock : W → Instant × W}
    {mailer : Mailer W} {sender : String} {overflow : Word.Overflow} {built : Processor W}
    {isPooled : Bool} {world : W} {before middle after : List Move} {s₁ s₂ s : Clients W} {i : Nat}
    {name description : String} {v : Json} {r : JobRecord}
    (around : App.Surroundings stores clock mailer archive)
    (assembled : App.processorOf settings stores clock mailer sender overflow = .ok built)
    (choice : p = { built with isPooled := isPooled }) (sound : archive.Sound world)
    (faithful : Faithful archive p [world] (start p world) (before ++ (middle ++ after)))
    (run₁ : (start p world).replay p before = some s₁) (run₂ : s₁.replay p middle = some s₂)
    (run₃ : s₂.replay p after = some s)
    (asked : s₁.asks[i]? = some (.enqueue name description v))
    (answered : s₁.answer? i = some (.enqueued (.ok r)))
    (isExport : Payload.AsksForExport v) (regular : v.Every Json.IsRegular) :
    NeverFails archive r.id v.compact s₁ s₂ s := by
  have attends : p.Attends archive Payload.IsExport := choice ▸ around.attends assembled
  have want : Payload.IsExport v.compact := isExport.isExport regular
  have keeps : Keeping archive Payload.IsExport (NewMinded archive Payload.IsExport) 0 [world]
      (start p world) := keeping_start sound
  obtain ⟨seen₁, keeps₁, _, _, faithful₁⟩ :=
    keeps.replay (expected_newMinded attends) attends trivial faithful run₁
  have minds₁ : archive.Minds Payload.IsExport v.compact s₁.world r.id :=
    keeps₁.told asked answered (Nat.zero_le i)
  obtain ⟨seen₂, keeps₂, minds₂, _, faithful₂⟩ :=
    keeps₁.restart.replay (expected_unfailed attends want) attends minds₁ faithful₁ run₂
  rw [← List.append_nil after] at faithful₂
  obtain ⟨_, keeps₃, minds₃, _, _⟩ :=
    keeps₂.replay (expected_unfailed attends want) attends minds₂ faithful₂ run₃
  constructor
  case there =>
    rcases minds₃.there with kept | ⟨_, filed⟩
    · exact .inl kept
    · exact .inr (filed want)
  case unfailed =>
    intro j status late asked answered
    exact (keeps₃.told asked answered late rfl).1
  case completed =>
    intro k j status late asked answered later asked' answered'
    have delivered := (keeps₂.told asked answered late rfl).2 rfl
    obtain ⟨_, keeps₄, _⟩ :=
      keeps₂.restart.replay (expected_completed attends) attends delivered faithful₂ run₃
    exact keeps₄.told asked' answered' later rfl

/-! ### An instance -/

/-- A payload that asks for an export of users. -/
def usersExport : Json :=
  .obj [("data", .obj [("operation", .str "export"), ("source", .str "users"),
    ("target", .str "csv")]), ("type", .str dataProcessingJobType)]

/-- A site with a source without rows. -/
def exportSite : Site :=
  { Site.start { stillNature with made := 1 } with sources := ⟨[("users", [])]⟩ }

/-- The processor of a service in memory without a pool. -/
def exportProcessor : Processor Site :=
  ⟨.default, ⟨Site.memoryStores.records, Site.clock, .breaksOff⟩, some Site.memoryStores.files,
    ⟨[(emailJobType, (sendEmail .silent defaultSender).toHandler),
      (dataProcessingJobType,
        (App.exporterOf .default Site.memoryStores Site.clock).processData.toHandler)]⟩, false⟩

/-- The record of the export. -/
def usersRecord : JobRecord :=
  { stillNature with made := 1 }.next ⟨"users", "", usersExport.compact⟩

/-- What is kept at a site whose stores are in memory. -/
def siteArchive : Archive Site JobRecord :=
  MemoryStore.archive Site.recordsPart Site.filesPart Site.naturePart

theorem surroundings_site :
    App.Surroundings Site.memoryStores Site.clock .silent siteArchive where
  kept := .memory ⟨fun _ _ => rfl, fun _ _ => rfl, fun _ _ => rfl, fun _ _ => rfl⟩
    ⟨fun _ _ => rfl, fun _ _ => rfl, fun _ _ => rfl, fun _ _ => rfl⟩
    ⟨fun _ _ => rfl, fun _ _ => rfl, fun _ _ => rfl, fun _ _ => rfl⟩
    (.self (fun _ => .refl) _) (.self (fun _ => .refl) _)
  ticking := by
    intro w _
    exact ⟨⟨fun good => good, fun _ => rfl⟩, ⟨fun tidy => tidy, fun _ fresh => fresh,
      fun _ has => has⟩⟩
  fetching := fun _ _ _ _ => .refl
  mailing := fun _ _ => trivial

theorem exportSite_sound : siteArchive.Sound exportSite where
  good := ⟨trivial, nofun, List.nodup_nil⟩
  tidy := by
    intro a b same
    have lengths := congrArg (fun text => text.toList.length) same
    simpa [exportSite, stillNature, Site.start, Site.naturePart] using lengths
  vacant := fun _ _ => rfl

theorem usersExport_regular : usersExport.Every Json.IsRegular := by
  have ordered : "data" < "type" ∧ "operation" < "source" ∧ "source" < "target" := by decide
  simp [usersExport, Json.Every, Json.EveryField, Json.IsRegular, Fields.Ordered, ordered]

/-- Some steps of a call. -/
def turns (i n : Nat) : List Move := List.replicate n (.go (.call i true))

/-- The export is put in. -/
def untilStored : List Move := .ask (.enqueue "users" "" usersExport) :: turns 0 1

/-- The export is processed, and statuses are asked for when its file has been made and when its
record has been deleted. -/
def untilCompleted : List Move :=
  .ask (.process usersRecord) :: (turns 1 5 ++ .ask (.status "a") :: (turns 2 2 ++ turns 1 1) ++
    .ask (.status "a") :: turns 3 2)

/-- Another status is asked for. -/
def afterwards : List Move := .ask (.status "a") :: turns 4 2

theorem export_never_failed_users : ∃ s₁ s₂ s : Clients Site,
    (start exportProcessor exportSite).replay exportProcessor untilStored = some s₁ ∧
    s₁.replay exportProcessor untilCompleted = some s₂ ∧
    s₂.replay exportProcessor afterwards = some s ∧
    s₂.answer? 2 = some (.status (.ok .processing)) ∧
    s₂.answer? 3 = some (.status (.ok .completed)) ∧
    NeverFails siteArchive "a" usersExport.compact s₁ s₂ s := by
  have faithful : Faithful siteArchive exportProcessor [exportSite]
      (start exportProcessor exportSite) (untilStored ++ (untilCompleted ++ afterwards)) := by
    have stored : ∀ a, .ask a ∈ untilStored → a.records = [] := by
      simp [untilStored, turns, Ask.records]
    refine Faithful.append List.mem_cons_self (faithful_of_nothing stored) ?_
    intro seen s₁ run there
    refine ⟨?_, fun _ _ => faithful_of_nothing (by simp [afterwards, turns, Ask.records])⟩
    rintro _ ⟨⟩ r member
    cases List.mem_singleton.mp member
    cases run
    exact ⟨_, there, rfl⟩
  refine ⟨_, _, _, rfl, rfl, rfl, rfl, rfl, ?_⟩
  exact export_never_failed (v := usersExport) (r := usersRecord) (i := 0) surroundings_site
    App.processorOf_eq rfl exportSite_sound faithful rfl rfl rfl rfl rfl
    ⟨_, _, _, rfl, rfl, rfl, rfl, rfl⟩ usersExport_regular

end Clients

end JobQueue
