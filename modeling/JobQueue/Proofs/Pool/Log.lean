/-
The log of a pool.

The log keeps what becomes of the work: the batches that are admitted, the envelopes that come into
the job channel, and for each worker the envelopes that it takes, the steps of their runs and the
ends of these (`logged?`). Three things hold of the log of any pool that has been started
(`Kept`): workers take the accepted envelopes in their order and each of them once, a worker
brings every run to its end before it begins the next (`Shift`), and what is accepted belongs to a
batch that has been admitted, under a number of its own.
-/

import JobQueue.Proofs.Job.Returns
import JobQueue.Proofs.Pool.Turn

namespace JobQueue

variable {W : Type}

/-- The run that a worker is at. -/
def Worker.run? (w : Worker W) : Option (Envelope × Task W Ended) :=
  match w.state with
  | .busy e task => some (e, task)
  | _ => none

namespace Pool

/-! ### Entries -/

/-- What the log of a pool tells. -/
inductive Entry (W : Type) where
  /-- A batch gets its turn, under a number. -/
  | admitted (s : Submission) (number : Nat)
  /-- An envelope comes into the job channel. -/
  | accepted (e : Envelope)
  /-- A worker takes an envelope. -/
  | begun (worker : Nat) (e : Envelope)
  /-- A worker takes a step of the run of its envelope. -/
  | did (worker : Nat) (e : Envelope) (input : Task.Input W)
  /-- A worker has come to the end of the run of its envelope. -/
  | ended (worker : Nat) (e : Envelope) (ended : Ended)

namespace Entry

/-- The batch that is admitted, with its number. -/
def admitted? : Entry W → Option (Submission × Nat)
  | .admitted s number => some (s, number)
  | _ => none

/-- The envelope that is accepted. -/
def accepted? : Entry W → Option Envelope
  | .accepted e => some e
  | _ => none

/-- The envelope that is taken, with the worker. -/
def begun? : Entry W → Option (Nat × Envelope)
  | .begun i e => some (i, e)
  | _ => none

/-- The envelope whose run has ended, with the worker. -/
def ended? : Entry W → Option (Nat × Envelope)
  | .ended i e _ => some (i, e)
  | _ => none

/-- The worker whose entry it is. -/
def worker? : Entry W → Option Nat
  | .begun i _ | .did i _ _ | .ended i _ _ => some i
  | _ => none

end Entry

/-- What the log tells of an event. -/
def logged? (p : Pool W) : Event → Option (Entry W)
  | .turn =>
      match p.active, p.waiting with
      | none, s :: _ => if p.isShutdown then none else some (.admitted s p.nextBatch)
      | _, _ => none
  | .send =>
      match p.active with
      | some b => b.unsent.head?.map fun entry => .accepted ⟨b.number, entry.2⟩
      | none => none
  | .take i => p.jobs.head?.map (.begun i)
  | .run i =>
      match p.workerState? i with
      | some (.busy e (.act _ _)) => some (.did i e (.world p.world))
      | some (.busy e (.done ended)) => some (.ended i e ended)
      | _ => none
  | .ready i =>
      match p.workerState? i with
      | some (.busy e _) => some (.did i e (.came true))
      | _ => none
  | .expire i =>
      match p.workerState? i with
      | some (.busy e _) => some (.did i e (.came false))
      | _ => none
  | _ => none

/-- The log of a run. -/
def log (x : Executor W) (p : Pool W) (events : List Event) : List (Entry W) :=
  p.readings x logged? events

section Lists

variable (log : List (Entry W)) (i : Nat)

/-- The batches that were admitted, with their numbers. -/
def admitted : List (Submission × Nat) := log.filterMap Entry.admitted?

/-- The envelopes that were accepted. -/
def accepted : List Envelope := log.filterMap Entry.accepted?

/-- The envelopes that workers have taken. -/
def begun : List (Nat × Envelope) := log.filterMap Entry.begun?

/-- The envelopes whose runs workers have brought to their ends. -/
def ended : List (Nat × Envelope) := log.filterMap Entry.ended?

/-- The entries of one worker. -/
def ofWorker : List (Entry W) := log.filter fun entry => entry.worker? == some i

/-- The envelopes that one worker has taken. -/
def begunBy : List Envelope := (begun (ofWorker log i)).map Prod.snd

/-- The envelopes whose runs one worker has brought to their ends. -/
def endedBy : List Envelope := (ended (ofWorker log i)).map Prod.snd

end Lists

section More

variable {entries : List (Entry W)} {entry : Option (Entry W)}

private theorem filterMap_more {α : Type} (f : Entry W → Option α) :
    (entries ++ entry.toList).filterMap f = entries.filterMap f ++ (entry.bind f).toList := by
  cases entry with
  | none => simp
  | some entry =>
      rw [List.filterMap_append]
      cases told : f entry <;> simp [told]

theorem admitted_more : admitted (entries ++ entry.toList) =
    admitted entries ++ (entry.bind Entry.admitted?).toList := filterMap_more _

theorem accepted_more : accepted (entries ++ entry.toList) =
    accepted entries ++ (entry.bind Entry.accepted?).toList := filterMap_more _

theorem accepted_admitted {s : Submission} {number : Nat} :
    accepted (entries ++ [.admitted s number]) = accepted entries :=
  (@accepted_more _ _ (some _)).trans (List.append_nil _)

theorem begun_more : begun (entries ++ entry.toList) =
    begun entries ++ (entry.bind Entry.begun?).toList := filterMap_more _

theorem ended_more : ended (entries ++ entry.toList) =
    ended entries ++ (entry.bind Entry.ended?).toList := filterMap_more _

theorem of_admitted? {s : Submission} {number : Nat}
    (told : entry.bind Entry.admitted? = some (s, number)) : entry = some (.admitted s number) := by
  obtain ⟨entry, rfl, admits⟩ := Option.bind_eq_some_iff.mp told
  cases entry <;> cases admits
  rfl

theorem of_accepted? {e : Envelope} (told : entry.bind Entry.accepted? = some e) :
    entry = some (.accepted e) := by
  obtain ⟨entry, rfl, accepts⟩ := Option.bind_eq_some_iff.mp told
  cases entry <;> cases accepts
  rfl

end More

variable {x : Executor W} {p q : Pool W} {event : Event} {i : Nat} {entries : List (Entry W)}

/-- The run that a worker of a pool is at. -/
def runOf? (p : Pool W) (i : Nat) : Option (Envelope × Task W Ended) :=
  (p.workers[i]?).bind Worker.run?

theorem runOf?_start {limits : PoolLimits} {size : Nat} {world : W} :
    (start limits size world).runOf? i = none := by
  rw [runOf?, Option.bind_eq_none_iff]
  intro w here
  cases List.eq_of_mem_replicate (List.mem_of_getElem? here)
  rfl

/-- The world changes at the steps of runs only. -/
theorem Step.world_eq (rule : Step x p event q) :
    (q.world = p.world ∧ ∀ i e w, p.logged? event ≠ some (.did i e (.world w))) ∨
    ∃ i e update next, p.runOf? i = some (e, .act update next) ∧ q.world = update p.world ∧
      p.logged? event = some (.did i e (.world p.world)) := by
  have unseen : ∀ {event : Event}, p.logged? event = none →
      ∀ i e w, p.logged? event ≠ some (.did i e (.world w)) := by
    intro event none i e w seen
    cases none.symm.trans seen
  cases rule with
  | @act i timer e update next busy =>
      refine Or.inr ⟨i, e, update, next, by simp [runOf?, busy, Worker.run?], ?_, ?_⟩
      · rw [setTask_eq]
      · simp [logged?, workerState?, busy]
  | turn free next early =>
      exact Or.inl ⟨proceed_world, by simp [logged?, free, next, early]⟩
  | reject free next late => exact Or.inl ⟨rfl, by simp [logged?, free, next, late]⟩
  | send active next => exact Or.inl ⟨proceed_world, by simp [logged?, active, next]⟩
  | sendTimeout | sendClosed | collect | collectTimeout =>
      exact Or.inl ⟨proceed_world, unseen rfl⟩
  | take idle next =>
      rw [setTask_eq]
      exact Or.inl ⟨rfl, by simp [logged?, next]⟩
  | finish busy => exact Or.inl ⟨rfl, by simp [logged?, workerState?, busy]⟩
  | ready busy | expire busy =>
      rw [setTask_eq]
      exact Or.inl ⟨rfl, by simp [logged?, workerState?, busy]⟩
  | _ => exact Or.inl ⟨rfl, unseen rfl⟩

/-! ### The shifts of the workers -/

/-- How the run that a worker is at goes on, with what the log tells of it. -/
inductive Stride (x : Executor W) (i : Nat) :
    Option (Envelope × Task W Ended) → Option (Entry W) → Option (Envelope × Task W Ended) → Prop
  | took {e : Envelope} : Stride x i none (some (.begun i e)) (some (e, x.run (some i) e.record))
  | did {e : Envelope} {task task' : Task W Ended} {input : Task.Input W}
      (given : task.given input = some task') :
      Stride x i (some (e, task)) (some (.did i e input)) (some (e, task'))
  | ended {e : Envelope} {ended : Ended} :
      Stride x i (some (e, .done ended)) (some (.ended i e ended)) none
  | aside : Stride x i none none none

/-- What a worker has done from the beginning, and the run that it is at. -/
inductive Shift (x : Executor W) (i : Nat) :
    List (Entry W) → Option (Envelope × Task W Ended) → Prop
  | start : Shift x i [] none
  | more {entries : List (Entry W)} {entry : Option (Entry W)}
      {before after : Option (Envelope × Task W Ended)} (shift : Shift x i entries before)
      (stride : Stride x i before entry after) : Shift x i (entries ++ entry.toList) after

/-- An event is a stride of one worker, or leaves all workers alone. -/
theorem Step.stride (rule : Step x p event q) :
    (q.workers = p.workers ∧ ∀ entry, p.logged? event = some entry → entry.worker? = none) ∨
    ∃ i w w', p.workers[i]? = some w ∧ q.workers = p.workers.set i w' ∧
      (∀ entry, p.logged? event = some entry → entry.worker? = some i) ∧
      Stride x i w.run? (p.logged? event) w'.run? := by
  have unseen : ∀ {event : Event}, p.logged? event = none →
      ∀ entry, p.logged? event = some entry → entry.worker? = none := by
    intro event none entry seen
    cases none.symm.trans seen
  cases rule with
  | turn free next early =>
      refine Or.inl ⟨proceed_workers, fun entry seen => ?_⟩
      simp only [logged?, free, next, early, Bool.false_eq_true, if_false,
        Option.some.injEq] at seen
      exact seen ▸ rfl
  | send active next =>
      refine Or.inl ⟨proceed_workers, fun entry seen => ?_⟩
      simp only [logged?, active, next, List.head?_cons, Option.map_some, Option.some.injEq] at seen
      exact seen ▸ rfl
  | reject free next late =>
      refine Or.inl ⟨rfl, unseen ?_⟩
      simp [logged?, free, next, late]
  | sendTimeout | sendClosed | collect | collectTimeout =>
      exact Or.inl ⟨proceed_workers, unseen rfl⟩
  | @take i timer e rest idle next =>
      rw [setTask_eq]
      have seen : p.logged? (.take i) = some (.begun i e) := by simp [logged?, next]
      refine Or.inr ⟨i, _, _, idle, rfl, fun entry same => ?_, seen ▸ .took⟩
      cases seen.symm.trans same
      rfl
  | @act i timer e update following busy =>
      rw [setTask_eq]
      have seen : p.logged? (.run i) = some (.did i e (.world p.world)) := by
        simp [logged?, workerState?, busy]
      refine Or.inr ⟨i, _, _, busy, rfl, fun entry same => ?_, seen ▸ .did rfl⟩
      cases seen.symm.trans same
      rfl
  | @finish i timer e ended busy =>
      have seen : p.logged? (.run i) = some (.ended i e ended) := by
        simp [logged?, workerState?, busy]
      refine Or.inr ⟨i, _, _, busy, rfl, fun entry same => ?_, seen ▸ .ended⟩
      cases seen.symm.trans same
      rfl
  | @ready i timer e ready limit following busy =>
      rw [setTask_eq]
      have seen : p.logged? (.ready i) = some (.did i e (.came true)) := by
        simp [logged?, workerState?, busy]
      refine Or.inr ⟨i, _, _, busy, rfl, fun entry same => ?_, seen ▸ .did rfl⟩
      cases seen.symm.trans same
      rfl
  | @expire i timer e ready limit following busy =>
      rw [setTask_eq]
      have seen : p.logged? (.expire i) = some (.did i e (.came false)) := by
        simp [logged?, workerState?, busy]
      refine Or.inr ⟨i, _, _, busy, rfl, fun entry same => ?_, seen ▸ .did rfl⟩
      cases seen.symm.trans same
      rfl
  | deliver here | giveUp here | stop here | quit here =>
      refine Or.inr ⟨_, _, _, here, rfl, fun entry seen => ?_, .aside⟩
      cases seen
  | submitEmpty | submitLate | submit | collectClosed | shutdown | deadline | elapse =>
      exact Or.inl ⟨rfl, unseen rfl⟩

/-- The log has the shift of each worker. -/
def Shifts (x : Executor W) (entries : List (Entry W)) (p : Pool W) : Prop :=
  ∀ i, Shift x i (ofWorker entries i) (p.runOf? i)

theorem ofWorker_more {entry : Option (Entry W)} : ofWorker (entries ++ entry.toList) i =
    ofWorker entries i ++ ofWorker entry.toList i := List.filter_append ..

/-- An event is a stride of a worker, or leaves it alone. -/
theorem Step.strideOf (rule : Step x p event q) (j : Nat) :
    (q.runOf? j = p.runOf? j ∧ ∀ entry, p.logged? event = some entry → entry.worker? ≠ some j) ∨
    (∀ entry, p.logged? event = some entry → entry.worker? = some j) ∧
      Stride x j (p.runOf? j) (p.logged? event) (q.runOf? j) := by
  rcases rule.stride with ⟨workers, nobody⟩ | ⟨i, w, w', here, workers, own, stride⟩
  · exact Or.inl ⟨by rw [runOf?, workers]; rfl, fun entry seen => by simp [nobody entry seen]⟩
  · by_cases same : i = j
    · subst same
      have inside : i < p.workers.length := (List.getElem?_eq_some_iff.mp here).1
      refine Or.inr ⟨own, ?_⟩
      rw [runOf?, runOf?, workers, here, List.getElem?_set_self inside, Option.bind_some,
        Option.bind_some]
      exact stride
    · refine Or.inl ⟨by rw [runOf?, workers, List.getElem?_set_ne same]; rfl, ?_⟩
      intro entry seen told
      exact same (Option.some.inj ((own entry seen).symm.trans told))

theorem Shifts.step (shifts : Shifts x entries p) (rule : Step x p event q) :
    Shifts x (entries ++ (p.logged? event).toList) q := by
  intro j
  rw [ofWorker_more]
  rcases rule.strideOf j with ⟨run, other⟩ | ⟨own, stride⟩
  · have apart : ofWorker (p.logged? event).toList j = [] := by
      cases seen : p.logged? event with
      | none => rfl
      | some entry => simpa [ofWorker] using other entry seen
    rw [apart, List.append_nil, run]
    exact shifts j
  · have all : ofWorker (p.logged? event).toList j = (p.logged? event).toList := by
      cases seen : p.logged? event with
      | none => rfl
      | some entry => simp [ofWorker, own entry seen]
    rw [all]
    exact (shifts j).more stride

/-! ### What a shift tells -/

variable {now : Option (Envelope × Task W Ended)} {e : Envelope} {task : Task W Ended}

/-- A worker ends its runs in the order in which it has begun them, and each before the next. -/
theorem Shift.begun_eq (shift : Shift x i entries now) : (begun entries).map Prod.snd =
    (ended entries).map Prod.snd ++ (now.map Prod.fst).toList := by
  induction shift with
  | start => rfl
  | more shift stride ih =>
      rw [begun_more, ended_more, List.map_append, List.map_append, ih]
      cases stride <;> simp [Entry.begun?, Entry.ended?]

/-- The run that a worker is at began with its envelope, and has taken the steps that the log tells
of since. -/
theorem Shift.present (shift : Shift x i entries now) (present : now = some (e, task)) :
    ∃ before inputs, entries = before ++ .begun i e :: inputs.map (.did i e) ∧
      (x.run (some i) e.record).follow inputs = some task := by
  induction shift generalizing task with
  | start => cases present
  | more shift stride ih =>
      cases stride with
      | took =>
          cases present
          exact ⟨_, [], rfl, rfl⟩
      | did given =>
          cases present
          obtain ⟨before, inputs, told, follows⟩ := ih rfl
          refine ⟨before, inputs ++ [_], ?_, Task.follow_snoc follows given⟩
          simp [told]
      | ended | aside => cases present

/-- A run that a worker has brought to its end began with its envelope, and has taken the steps
that the log tells of. -/
theorem Shift.past {ended : Ended} (shift : Shift x i entries now)
    (there : .ended i e ended ∈ entries) : ∃ before inputs after,
      entries = before ++ .begun i e :: (inputs.map (.did i e) ++ .ended i e ended :: after) ∧
      (x.run (some i) e.record).follow inputs = some (.done ended) := by
  induction shift with
  | start => cases there
  | @more entries entry before after shift stride ih =>
      rcases List.mem_append.mp there with old | new
      · obtain ⟨earlier, inputs, later, told, follows⟩ := ih old
        exact ⟨earlier, inputs, later ++ entry.toList, by simp [told], follows⟩
      · cases stride with
        | ended =>
            cases List.mem_singleton.mp new
            obtain ⟨earlier, inputs, told, follows⟩ := shift.present rfl
            exact ⟨earlier, inputs, [], by simp [told], follows⟩
        | took | did => cases List.mem_singleton.mp new
        | aside => cases new

/-- A worker takes the steps of envelopes that it has taken. -/
theorem Shift.did {input : Task.Input W} (shift : Shift x i entries now)
    (there : .did i e input ∈ entries) : (i, e) ∈ begun entries := by
  induction shift with
  | start => cases there
  | @more entries entry before after shift stride ih =>
      rw [begun_more, List.mem_append]
      rcases List.mem_append.mp there with old | new
      · exact Or.inl (ih old)
      · cases stride with
        | did given =>
            cases List.mem_singleton.mp new
            obtain ⟨earlier, inputs, told, _⟩ := shift.present rfl
            exact Or.inl (by simp [told, begun, Entry.begun?])
        | took | ended => cases List.mem_singleton.mp new
        | aside => cases new

/-! ### What is accepted and what is taken -/

/-- Workers take what is accepted, in its order. -/
theorem accepted_step (order : accepted entries = (begun entries).map Prod.snd ++ p.jobs)
    (rule : Step x p event q) : accepted (entries ++ (p.logged? event).toList) =
      (begun (entries ++ (p.logged? event).toList)).map Prod.snd ++ q.jobs := by
  rw [accepted_more, begun_more, List.map_append, order, List.append_assoc, List.append_assoc]
  cases rule with
  | send active next => simp [logged?, active, next, Entry.accepted?, Entry.begun?]
  | take idle next => simp [logged?, next, Entry.accepted?, Entry.begun?, setTask_eq]
  | turn free next early => simp [logged?, free, next, early, Entry.accepted?, Entry.begun?]
  | reject free next late => simp [logged?, free, next, late, answer]
  | act busy =>
      simp [logged?, workerState?, busy, Entry.accepted?, Entry.begun?, setTask_eq]
  | finish busy =>
      simp [logged?, workerState?, busy, Entry.accepted?, Entry.begun?, setWorker]
  | ready busy => simp [logged?, workerState?, busy, Entry.accepted?, Entry.begun?, setTask_eq]
  | expire busy => simp [logged?, workerState?, busy, Entry.accepted?, Entry.begun?, setTask_eq]
  | _ => simp [logged?, answer, setWorker]

/-! ### What is admitted -/

/-- Each batch is admitted once and under a number of its own, before anything of it is accepted. -/
structure Admissions (entries : List (Entry W)) (p : Pool W) : Prop where
  numbers : ((admitted entries).map Prod.snd).Nodup
  tickets : ((admitted entries).map fun a => a.1.ticket).Nodup
  dated : ∀ a ∈ admitted entries, a.2 < p.nextBatch
  /-- An admitted batch is not in the queue any more. -/
  left : ∀ a ∈ admitted entries, ∀ s ∈ p.waiting, s.ticket ≠ a.1.ticket
  named : ∀ a ∈ admitted entries, a.1.ticket < p.nextTicket
  current : ∀ b, p.active = some b → ∃ s, (s, b.number) ∈ admitted entries ∧
    s.ticket = b.ticket ∧ ∀ entry ∈ b.unsent, entry.2 ∈ s.records
  source : ∀ e ∈ accepted entries, ∃ s, (s, e.batch) ∈ admitted entries ∧ e.record ∈ s.records

/-- What waits has waited before, or has just been handed in. -/
theorem Step.mem_waiting {s : Submission} (rule : Step x p event q) (waits : s ∈ q.waiting) :
    s ∈ p.waiting ∨ s.ticket = p.nextTicket := by
  cases rule with
  | submit =>
      rcases List.mem_append.mp waits with old | new
      · exact Or.inl old
      · exact Or.inr (by rw [List.mem_singleton.mp new])
  | reject _ next => exact Or.inl (next ▸ List.mem_cons_of_mem _ waits)
  | turn _ next =>
      rw [proceed_waiting] at waits
      exact Or.inl (next ▸ List.mem_cons_of_mem _ waits)
  | send | sendTimeout | sendClosed | collect | collectTimeout =>
      rw [proceed_waiting] at waits
      exact Or.inl waits
  | take | act | ready | expire =>
      rw [setTask_eq] at waits
      exact Or.inl waits
  | _ => exact Or.inl waits

theorem Step.nextTicket_le (rule : Step x p event q) : p.nextTicket ≤ q.nextTicket := by
  rcases rule.tickets with ⟨_, same⟩ | ⟨_, next⟩ <;> omega

theorem mem_of_mem_indexed {records : List JobRecord} {entry : Nat × JobRecord}
    (there : entry ∈ indexed records) : entry.2 ∈ records := by
  simp only [indexed, List.mem_map, Prod.exists] at there
  obtain ⟨r, i, member, rfl⟩ := there
  exact List.fst_mem_of_mem_zipIdx member

/-- An event that admits no batch keeps the admissions, if it accepts what the batch has to send. -/
theorem Admissions.keep {more : Option (Entry W)} (admissions : Admissions entries p)
    (rule : Step x p event q) (stays : more.bind Entry.admitted? = none)
    (before : ∀ b', q.active = some b' → ∃ b, p.active = some b ∧ b'.ticket = b.ticket ∧
      b'.number = b.number ∧ b'.unsent ⊆ b.unsent)
    (source : ∀ e, more.bind Entry.accepted? = some e →
      ∃ s, (s, e.batch) ∈ admitted entries ∧ e.record ∈ s.records) :
    Admissions (entries ++ more.toList) q := by
  have same : admitted (entries ++ more.toList) = admitted entries := by
    rw [admitted_more, stays, Option.toList_none, List.append_nil]
  refine ⟨same ▸ admissions.numbers, same ▸ admissions.tickets, ?_, ?_, ?_, ?_, ?_⟩
  · intro a there
    exact Nat.lt_of_lt_of_le (admissions.dated a (same ▸ there)) rule.nextBatch_le
  · intro a there s waits equal
    rcases rule.mem_waiting waits with old | new
    · exact admissions.left a (same ▸ there) s old equal
    · have := admissions.named a (same ▸ there)
      omega
  · intro a there
    exact Nat.lt_of_lt_of_le (admissions.named a (same ▸ there)) rule.nextTicket_le
  · intro b' active
    obtain ⟨b, active', ticket, number, fewer⟩ := before b' active
    obtain ⟨s, there, named, records⟩ := admissions.current b active'
    rw [same, number, ticket]
    exact ⟨s, there, named, fun entry member => records entry (fewer member)⟩
  · intro e there
    rw [accepted_more, List.mem_append, Option.mem_toList] at there
    rw [same]
    rcases there with old | new
    · exact admissions.source e old
    · exact source e new

/-- A batch that gets its turn is admitted. -/
theorem Admissions.admit {s : Submission} {rest : List Submission}
    (admissions : Admissions entries p) (ticketed : p.Ticketed) (next : p.waiting = s :: rest)
    (waiting : q.waiting = rest) (tickets : q.nextTicket = p.nextTicket)
    (numbers : q.nextBatch = p.nextBatch + 1)
    (active : ∀ b, q.active = some b →
      b.ticket = s.ticket ∧ b.number = p.nextBatch ∧ b.unsent = indexed s.records) :
    Admissions (entries ++ [.admitted s p.nextBatch]) q := by
  have more : admitted (entries ++ [.admitted s p.nextBatch]) =
      admitted entries ++ [(s, p.nextBatch)] := @admitted_more _ _ (some _)
  have waits : s ∈ p.waiting := next ▸ List.mem_cons_self
  have old_or_new : ∀ a ∈ admitted (entries ++ [.admitted s p.nextBatch]),
      a ∈ admitted entries ∨ a = (s, p.nextBatch) := by
    intro a there
    rw [more, List.mem_append, List.mem_singleton] at there
    exact there
  have once : (p.waiting.map Submission.ticket).Nodup := by
    have all := ticketed.once
    rw [Pool.tickets, ← List.append_assoc] at all
    exact all.of_append_right
  rw [next, List.map_cons, List.nodup_cons] at once
  refine ⟨?_, ?_, ?_, ?_, ?_, ?_, ?_⟩
  · rw [more, List.map_append, List.map_cons, List.map_nil, ← List.concat_eq_append]
    refine admissions.numbers.concat fun there => ?_
    obtain ⟨a, member, same⟩ := List.mem_map.mp there
    exact Nat.ne_of_lt (admissions.dated a member) same
  · rw [more, List.map_append, List.map_cons, List.map_nil, ← List.concat_eq_append]
    refine admissions.tickets.concat fun there => ?_
    obtain ⟨a, member, same⟩ := List.mem_map.mp there
    exact admissions.left a member s waits same.symm
  · intro a there
    rw [numbers]
    rcases old_or_new a there with old | rfl
    · exact Nat.lt_succ_of_lt (admissions.dated a old)
    · exact Nat.lt_succ_self _
  · intro a there s' waits' equal
    rw [waiting] at waits'
    rcases old_or_new a there with old | rfl
    · exact admissions.left a old s' (next ▸ List.mem_cons_of_mem _ waits') equal
    · exact once.1 (List.mem_map.mpr ⟨s', waits', equal⟩)
  · intro a there
    rw [tickets]
    rcases old_or_new a there with old | rfl
    · exact admissions.named a old
    · refine ticketed.dated s.ticket ?_
      simp [Pool.tickets, next]
  · intro b here
    obtain ⟨ticket, number, unsent⟩ := active b here
    refine ⟨s, ?_, ticket.symm, fun entry member => mem_of_mem_indexed (unsent ▸ member)⟩
    rw [more, number]
    exact List.mem_append_right _ List.mem_cons_self
  · intro e there
    rw [accepted_admitted] at there
    obtain ⟨s', member, record⟩ := admissions.source e there
    exact ⟨s', more ▸ List.mem_append_left _ member, record⟩

/-- What is admitted is the first batch that waits. -/
theorem Step.admits {s : Submission} {number : Nat} (rule : Step x p event q)
    (seen : p.logged? event = some (.admitted s number)) :
    number = p.nextBatch ∧ event = .turn ∧ ∃ rest, p.waiting = s :: rest ∧
      q = { p with waiting := rest, nextBatch := p.nextBatch + 1 }.proceed
        (Batch.opening s p.nextBatch ⟨p.now, p.order⟩) .poolShutdown := by
  cases rule with
  | turn free next early =>
      simp only [logged?, free, next, early, Bool.false_eq_true, if_false,
        Option.some.injEq, Entry.admitted.injEq] at seen
      obtain ⟨rfl, rfl⟩ := seen
      exact ⟨rfl, rfl, _, next, rfl⟩
  | reject free next late => simp [logged?, free, next, late] at seen
  | send active next => simp [logged?, active, next] at seen
  | take idle next => simp [logged?, next] at seen
  | act busy | finish busy | ready busy | expire busy =>
      simp [logged?, workerState?, busy] at seen
  | _ => cases seen

theorem Admissions.step (admissions : Admissions entries p) (ticketed : p.Ticketed)
    (rule : Step x p event q) : Admissions (entries ++ (p.logged? event).toList) q := by
  -- All events but turns leave the batch as it is, or what it has to send becomes less.
  have keeps : (p.logged? event).bind Entry.admitted? = none →
      (∀ e, (p.logged? event).bind Entry.accepted? = some e →
        ∃ s, (s, e.batch) ∈ admitted entries ∧ e.record ∈ s.records) →
      q.nextBatch = p.nextBatch → Admissions (entries ++ (p.logged? event).toList) q := by
    intro stays source calm
    refine admissions.keep rule stays (fun b' active => ?_) source
    rcases rule.active_eq_some active with
      ⟨b, before, ticket, number, fewer, _⟩ | ⟨_, _, _, _, _, _, _, more⟩
    · exact ⟨b, before, ticket, number, fewer⟩
    · omega
  have unseen : (p.logged? event).bind Entry.accepted? = none →
      ∀ e, (p.logged? event).bind Entry.accepted? = some e →
        ∃ s, (s, e.batch) ∈ admitted entries ∧ e.record ∈ s.records := by
    intro none e seen
    cases none.symm.trans seen
  cases rule with
  | @turn s rest free next early =>
      have seen : p.logged? .turn = some (.admitted s p.nextBatch) := by
        simp [logged?, free, next, early]
      rw [seen]
      refine admissions.admit ticketed next proceed_waiting proceed_nextTicket proceed_nextBatch ?_
      intro b active
      obtain ⟨_, ticket, number, unsent, _⟩ := of_proceed_active active
      exact ⟨ticket, number, unsent⟩
  | @send b index r rest active next =>
      have seen : p.logged? .send = some (.accepted ⟨b.number, r⟩) := by
        simp [logged?, active, next]
      refine keeps (by simp [seen, Entry.admitted?]) ?_ proceed_nextBatch
      intro e accepts
      rw [seen] at accepts
      cases accepts
      obtain ⟨s, there, _, records⟩ := admissions.current b active
      exact ⟨s, there, records (index, r) (next ▸ List.mem_cons_self)⟩
  | reject free next late =>
      have seen : p.logged? .turn = none := by simp [logged?, free, next, late]
      exact keeps (by simp [seen]) (unseen (by simp [seen])) rfl
  | take idle next =>
      refine keeps (by simp [logged?, next, Entry.admitted?])
        (unseen (by simp [logged?, next, Entry.accepted?])) ?_
      rw [setTask_eq]
  | act busy | ready busy | expire busy =>
      refine keeps (by simp [logged?, workerState?, busy, Entry.admitted?])
        (unseen (by simp [logged?, workerState?, busy, Entry.accepted?])) ?_
      rw [setTask_eq]
  | finish busy =>
      exact keeps (by simp [logged?, workerState?, busy, Entry.admitted?])
        (unseen (by simp [logged?, workerState?, busy, Entry.accepted?])) rfl
  | sendTimeout | sendClosed | collect | collectTimeout =>
      exact keeps rfl (unseen rfl) proceed_nextBatch
  | _ => exact keeps rfl (unseen rfl) rfl

/-! ### All of it -/

/-- What holds of a pool and its log. -/
structure Kept (x : Executor W) (entries : List (Entry W)) (p : Pool W) : Prop where
  /-- Workers take what is accepted, in its order. -/
  order : accepted entries = (begun entries).map Prod.snd ++ p.jobs
  shifts : Shifts x entries p
  admissions : Admissions entries p
  ticketed : p.Ticketed

theorem kept_start {limits : PoolLimits} {size : Nat} {world : W} :
    Kept x [] (start limits size world) where
  order := rfl
  shifts := by
    intro i
    rw [runOf?_start]
    exact .start
  admissions := by constructor <;> simp [start, admitted, accepted]
  ticketed := ticketed_start

theorem Kept.step (kept : Kept x entries p) (rule : Step x p event q) :
    Kept x (entries ++ (p.logged? event).toList) q where
  order := accepted_step kept.order rule
  shifts := kept.shifts.step rule
  admissions := kept.admissions.step kept.ticketed rule
  ticketed := kept.ticketed.step rule

theorem log_snoc {events : List Event} (run : p.replay x events = some q) :
    p.log x (events ++ [event]) = p.log x events ++ (q.logged? event).toList := readings_snoc run

end Pool

end JobQueue
