/-
What settings are when they are loaded.

The layers are the files that are there, in their order, and the variables with the prefix
(`Settings.layersOf`). Each setting is told by one thing (`Settings.load_told`): by its plain
variable, if it has one that holds a number in range; else by the last layer that gives it a value or
puts something else than a table in the place of its group. What comes after that layer leaves the
setting alone. If it gave no value, or there is no such layer, the setting is what it is by default,
unless a list has been left in the place of the group: then it is the item in its place. As long as
all layers give the groups as tables, a setting is told by the last layer that sets it, whatever any
layer says of others, but a list without items puts all settings of its group back
(`Settings.load_emptied`). The environment is told by its own variable alone.
-/

import JobQueue.Proofs.Settings.Groups
import JobQueue.Settings.Loader

namespace JobQueue

/-! ### Settings one by one -/

/-- The value of a setting. -/
inductive SettingValue where
  | text (s : String)
  | switch (b : Bool)
  | number (n : Nat)
deriving DecidableEq, Repr

/-- What values a setting has. -/
inductive SettingKind where
  | text
  | switch
  | number (range : NumberRange)

/-- The value of a setting that a tree is converted to. -/
def SettingKind.read : SettingKind → Tree → Except LayerError SettingValue
  | .text, t => t.asText.map .text
  | .switch, t => t.asSwitch.map .switch
  | .number range, t => (t.asNumber range).map .number

/-- A setting of a group. -/
structure LeafSetting where
  group : String
  name : String
  /-- Its place among the settings of its group. -/
  place : Nat
  kind : SettingKind
  get : Settings → SettingValue
  /-- The plain variable that goes over all layers. -/
  plain : Option String

/-- The number of jobs that are fetched at once. -/
def LeafSetting.batchSize : LeafSetting :=
  ⟨"jobs", "batch_size", 1, .number .size, fun s => .number s.jobs.batchSize, "JOB_BATCH_SIZE"⟩

/-- All settings but the environment. -/
def Settings.leafSettings : List LeafSetting := [
  ⟨"app", "name", 0, .text, fun s => .text s.app.name, none⟩,
  ⟨"app", "version", 1, .text, fun s => .text s.app.version, none⟩,
  ⟨"database", "url", 0, .text, fun s => .text s.database.url, none⟩,
  ⟨"database", "max_connections", 1, .number .word32, fun s => .number s.database.maxConnections,
    none⟩,
  ⟨"database", "connect_timeout_secs", 2, .number .word64,
    fun s => .number s.database.connectSeconds, none⟩,
  ⟨"jobs", "max_workers", 0, .number .size, fun s => .number s.jobs.maxWorkers,
    "JOB_MAX_WORKERS"⟩,
  .batchSize,
  ⟨"jobs", "reservation_timeout_minutes", 2, .number .word64,
    fun s => .number s.jobs.reservationMinutes, "JOB_RESERVATION_TIMEOUT"⟩,
  ⟨"jobs", "scan_schedule", 3, .text, fun s => .text s.jobs.scanSchedule, none⟩,
  ⟨"jobs", "send_timeout_secs", 4, .number .word64, fun s => .number s.jobs.sendSeconds, none⟩,
  ⟨"jobs", "result_timeout_secs", 5, .number .word64, fun s => .number s.jobs.resultSeconds, none⟩,
  ⟨"jobs", "result_send_timeout_secs", 6, .number .word64,
    fun s => .number s.jobs.resultSendSeconds, none⟩,
  ⟨"jobs", "shutdown_timeout_secs", 7, .number .word64, fun s => .number s.jobs.shutdownSeconds,
    none⟩,
  ⟨"jobs", "export_file_expiration_days", 8, .number .word32,
    fun s => .number s.jobs.expirationDays, "EXPORT_FILE_EXPIRATION_DAYS"⟩,
  ⟨"telemetry", "service_name", 0, .text, fun s => .text s.log.serviceName, none⟩,
  ⟨"telemetry", "filter", 1, .text, fun s => .text s.log.filter, none⟩,
  ⟨"telemetry", "json", 2, .switch, fun s => .switch s.log.json, none⟩]

/-! ### How each is read -/

/-- A setting of a tidy tree is read from its own source alone. -/
def LeafSetting.IsOwn (leaf : LeafSetting) : Prop :=
  ∀ (t : Tree) s, t.Tidy → t.asSettings = .ok s →
    IsRead leaf.get leaf.kind.read .default s (t.source leaf.group leaf.place leaf.name)

/-- The groups are parts of all settings, each of which is read by itself. -/
theorem reads_groups :
    Reads (Settings.settings Tree.leaves Tree.group) 0 "app" Settings.app
      (Tree.group AppDetails.groupName (AppDetails.settings Tree.leaves) .default) ∧
    Reads (Settings.settings Tree.leaves Tree.group) 1 "database" Settings.database
      (Tree.group DatabaseSettings.groupName (DatabaseSettings.settings Tree.leaves) .default) ∧
    Reads (Settings.settings Tree.leaves Tree.group) 2 "jobs" Settings.jobs
      (Tree.group JobsSettings.groupName (JobsSettings.settings Tree.leaves) .default) ∧
    Reads (Settings.settings Tree.leaves Tree.group) 3 "telemetry" Settings.log
      (Tree.group LogSettings.groupName (LogSettings.settings Tree.leaves) .default) := by
  refine ⟨?_, ?_, ?_, ?_⟩
  all_goals
    refine ⟨⟨_, rfl, rfl, Setting.gives_of_put (fun _ _ done => done) fun _ _ => rfl⟩, by decide, ?_⟩
    simp only [Settings.settings, List.eraseIdx, List.forall_mem_cons]
    refine ⟨?_, ?_, ?_, fun _ => nofun⟩
    all_goals exact Setting.spares_of_put fun _ _ => rfl

theorem LeafSetting.IsOwn.of_reads {α : Type} {index place : Nat} {group label name : String}
    {kind : SettingKind} {plain : Option String} {proj : Settings → α}
    {settings : List (Setting α Tree LayerError)}
    (outer : Reads (Settings.settings Tree.leaves Tree.group) index group proj
      (Tree.group label settings (proj .default))) (get : α → SettingValue)
    (inner : Reads settings place name get kind.read) :
    LeafSetting.IsOwn ⟨group, name, place, kind, fun s => get (proj s), plain⟩ :=
  fun _ _ tidy done => outer.asSettings proj inner tidy done

/-- Each setting is read from its own source alone. -/
theorem leafSettings_isOwn : ∀ leaf ∈ Settings.leafSettings, leaf.IsOwn := by
  obtain ⟨app, database, jobs, log⟩ := reads_groups
  simp only [Settings.leafSettings, List.forall_mem_cons]
  refine ⟨.of_reads app (fun g => .text g.name) ?_, .of_reads app (fun g => .text g.version) ?_,
    .of_reads database (fun g => .text g.url) ?_,
    .of_reads database (fun g => .number g.maxConnections) ?_,
    .of_reads database (fun g => .number g.connectSeconds) ?_,
    .of_reads jobs (fun g => .number g.maxWorkers) ?_,
    .of_reads jobs (fun g => .number g.batchSize) ?_,
    .of_reads jobs (fun g => .number g.reservationMinutes) ?_,
    .of_reads jobs (fun g => .text g.scanSchedule) ?_,
    .of_reads jobs (fun g => .number g.sendSeconds) ?_,
    .of_reads jobs (fun g => .number g.resultSeconds) ?_,
    .of_reads jobs (fun g => .number g.resultSendSeconds) ?_,
    .of_reads jobs (fun g => .number g.shutdownSeconds) ?_,
    .of_reads jobs (fun g => .number g.expirationDays) ?_,
    .of_reads log (fun g => .text g.serviceName) ?_, .of_reads log (fun g => .text g.filter) ?_,
    .of_reads log (fun g => .switch g.json) ?_, fun _ => nofun⟩
  all_goals
    refine ⟨⟨_, rfl, rfl, Setting.gives_of_put (fun _ _ done => map_ok done _) fun _ _ => rfl⟩,
      by decide, ?_⟩
    simp only [AppDetails.settings, DatabaseSettings.settings, JobsSettings.settings,
      LogSettings.settings, List.eraseIdx, List.forall_mem_cons]
    and_intros
    any_goals exact Setting.spares_of_put fun _ _ => rfl
    exact fun _ => nofun

/-! ### From all layers -/

namespace LeafSetting

/-- What tells a setting, after the entries of all layers: the item in its place, if a list stands for
its group; else the value given last, if the group has not been cleared since. -/
def told? (leaf : LeafSetting) (entries : List (String × Tree)) : Option Tree :=
  match (Tree.fieldsOf (Tree.layer (.table []) entries)).lookup leaf.group with
  | some (.list _ items) => items[leaf.place]?
  | _ => Tree.Saying.after none (Tree.lastSaying leaf.group leaf.name entries)

/-- The number that a variable holds, blanks around it aside, if it is one of a range. -/
def numberOf (range : NumberRange) (vars : EnvFile.Variables) (key : String) : Option Nat := do
  let written ← vars.lookup key
  let n ← Decimal.unsigned? (Text.trim written).toList
  if n < range.bound then some n else none

/-- The number that the plain variable of a setting holds. -/
def plainNumber? (leaf : LeafSetting) (vars : EnvFile.Variables) : Option Nat :=
  match leaf.kind, leaf.plain with
  | .number range, some key => numberOf range vars key
  | _, _ => none

end LeafSetting

theorem SettingKind.leaf_of_read {kind : SettingKind} {t : Tree} {v : SettingValue}
    (done : kind.read t = .ok v) : ∃ origin leaf, t = .leaf origin leaf := by
  cases t with
  | leaf origin leaf => exact ⟨origin, leaf, rfl⟩
  | list | table => cases kind <;> cases done

/-- What is read from the place of a setting is read from what tells it. -/
theorem IsRead.of_tells {leaf : LeafSetting} {s : Settings} {slot said : Option Tree}
    (isRead : IsRead leaf.get leaf.kind.read .default s slot) (tells : Tree.Tells slot said) :
    IsRead leaf.get leaf.kind.read .default s said := by
  cases slot with
  | none =>
      rw [tells.unsaid rfl]
      exact isRead
  | some t =>
      obtain ⟨origin, value, rfl⟩ := SettingKind.leaf_of_read isRead
      rw [tells.leaf origin value rfl]
      exact isRead

theorem LeafSetting.isRead_told {leaf : LeafSetting} {entries : List (String × Tree)} {s : Settings}
    (own : leaf.IsOwn) (done : (Tree.layer (.table []) entries).asSettings = .ok s) :
    IsRead leaf.get leaf.kind.read .default s (leaf.told? entries) := by
  have isRead := own _ s (Tree.tidy_layer entries) done
  have tells := Tree.tells_layer leaf.group leaf.name entries
  rw [Tree.source] at isRead
  rw [Tree.slot, Tree.within] at tells
  rw [told?]
  split
  next origin items found =>
    rw [found] at isRead
    exact isRead
  next other =>
    refine IsRead.of_tells ?_ tells
    cases found : (Tree.fieldsOf (Tree.layer (.table []) entries)).lookup leaf.group with
    | none =>
        rw [found] at isRead
        exact isRead
    | some u =>
        rw [found] at isRead
        cases u with
        | list origin items => exact absurd found (other origin items)
        | leaf | table => exact isRead

/-- Where no entry makes anything else of the group than a table, the value given last tells a
setting. -/
theorem LeafSetting.told?_eq (leaf : LeafSetting) {entries : List (String × Tree)}
    (calm : ∀ entry ∈ entries, Tree.clears leaf.group entry = false) :
    leaf.told? entries = Tree.lastValue leaf.group leaf.name entries := by
  have start : Tree.HasTable (.table []) leaf.group := fun _ found => by cases found
  have last : Tree.Saying.after none (Tree.lastSaying leaf.group leaf.name entries) =
      Tree.lastValue leaf.group leaf.name entries := Tree.lastValue_eq calm
  rw [told?]
  split
  next origin items found =>
    obtain ⟨fields, same⟩ := start.layer calm _ found
    cases same
  next => exact last

namespace Settings

/-- The layers: the entries of the files that are there, and those of the variables. -/
def layersOf (files : SettingsFiles) (vars : EnvFile.Variables) :
    Except ServiceError (List (List (String × Tree))) := do
  let there := (fileNames (environmentOf vars)).filterMap fun name =>
    (files.lookup name).map fun document => (name, document)
  let documents ← there.mapM fun (name, document) => fileLayer name document
  .ok (documents ++ [variableLayer vars])

theorem of_bind_ok {ε γ δ : Type} {first : Except ε γ} {next : γ → Except ε δ} {d : δ}
    (done : (first >>= next) = .ok d) : ∃ c, first = .ok c ∧ next c = .ok d := by
  cases first with
  | error e => cases done
  | ok c => exact ⟨c, rfl, done⟩

theorem bind_ok {ε γ δ : Type} {first : Except ε γ} {c : γ} (done : first = .ok c)
    (next : γ → Except ε δ) : (first >>= next) = next c := done ▸ rfl

theorem of_fileLayers {files : SettingsFiles} {names : List String} {old t : Tree}
    (done : fileLayers files names old = .ok t) :
    ∃ documents, (names.filterMap fun name => (files.lookup name).map fun document =>
        (name, document)).mapM (fun entry => fileLayer entry.1 entry.2) = .ok documents ∧
      t = old.layer documents.flatten := by
  induction names generalizing old with
  | nil =>
      cases done
      exact ⟨[], rfl, rfl⟩
  | cons name names ih =>
      rw [fileLayers] at done
      rw [List.filterMap_cons]
      cases found : files.lookup name with
      | none =>
          rw [found] at done
          exact ih done
      | some document =>
          rw [found] at done
          obtain ⟨values, first, later⟩ := of_bind_ok done
          obtain ⟨documents, others, rfl⟩ := ih later
          refine ⟨values :: documents, ?_, ?_⟩
          · rw [Option.map_some, List.mapM_cons, bind_ok first, bind_ok others]
            rfl
          · rw [List.flatten_cons, Tree.layer, Tree.layer, Tree.layer, List.foldl_append]

theorem of_layers {files : SettingsFiles} {vars : EnvFile.Variables} {t : Tree}
    (done : layers files vars = .ok t) :
    ∃ all, layersOf files vars = .ok all ∧ t = Tree.layer (.table []) all.flatten := by
  obtain ⟨old, first, last⟩ := of_bind_ok done
  obtain ⟨documents, those, rfl⟩ := of_fileLayers first
  cases last
  refine ⟨documents ++ [variableLayer vars], bind_ok those _, ?_⟩
  rw [List.flatten_append, List.flatten_singleton, Tree.layer, Tree.layer, Tree.layer,
    List.foldl_append]

/-! ### Over all layers -/

theorem bound_le (range : NumberRange) : range.bound ≤ NumberRange.word64.bound := by
  cases range <;> decide

/-- What is kept of the number of a plain variable is the number of the range of the setting. -/
theorem filter_plainNumber? (range : NumberRange) (vars : EnvFile.Variables) (key : String) :
    (plainNumber? vars key).filter (fun n => decide (n < range.bound)) =
      LeafSetting.numberOf range vars key := by
  rw [plainNumber?, LeafSetting.numberOf]
  cases vars.lookup key with
  | none => rfl
  | some written =>
      simp only [Option.bind_eq_bind, Option.bind_some]
      cases Decimal.unsigned? (Text.trim written).toList with
      | none => rfl
      | some n =>
          rw [Option.bind_some, Option.bind_some]
          by_cases inRange : n < range.bound
          · rw [if_pos (Nat.lt_of_lt_of_le inRange (bound_le range)), if_pos inRange,
              Option.filter_some, decide_eq_true inRange, if_pos rfl]
          · rw [if_neg inRange]
            split
            · rw [Option.filter_some, decide_eq_false inRange]
              rfl
            · rfl

/-- The settings with those over them that are not taken from layers. -/
def overlaid (vars : EnvFile.Variables) (s : Settings) : Settings :=
  { s with
    app := { s.app with environment := environmentOf vars }
    jobs := withPlainVariables vars s.jobs }

/-- Plain variables set their own settings, and only those. -/
theorem get_overlaid (vars : EnvFile.Variables) (s : Settings) : ∀ leaf ∈ leafSettings,
    leaf.get (overlaid vars s) =
      match leaf.plainNumber? vars with
      | some n => .number n
      | none => leaf.get s := by
  have numbers (range : NumberRange) (key : String) (other : Nat) :
      SettingValue.number (((plainNumber? vars key).filter
          fun n => decide (n < range.bound)).getD other) =
        match LeafSetting.numberOf range vars key with
        | some n => .number n
        | none => .number other := by
    rw [filter_plainNumber?]
    cases LeafSetting.numberOf range vars key <;> rfl
  simp only [leafSettings, List.forall_mem_cons]
  refine ⟨rfl, rfl, rfl, rfl, rfl, ?_, ?_, ?_, rfl, rfl, rfl, rfl, rfl, ?_, rfl, rfl, rfl,
    fun _ => nofun⟩
  all_goals exact numbers _ _ _

/-- Each setting is the number that its plain variable holds, else what is read from the tree that
tells it, else what it is by default. -/
def ToldBy (s : Settings) (vars : EnvFile.Variables) (told : LeafSetting → Option Tree) : Prop :=
  ∀ leaf ∈ leafSettings,
    match leaf.plainNumber? vars with
    | some n => leaf.get s = .number n
    | none => IsRead leaf.get leaf.kind.read .default s (told leaf)

theorem of_load {files : SettingsFiles} {vars : EnvFile.Variables} {s : Settings}
    (loaded : load files vars = .ok s) :
    ∃ t read, layers files vars = .ok t ∧ t.asSettings = .ok read ∧ s = overlaid vars read := by
  obtain ⟨t, together, later⟩ := of_bind_ok loaded
  obtain ⟨read, done, checked⟩ := of_bind_mapError later
  refine ⟨t, read, together, done, ?_⟩
  dsimp only at checked
  split at checked
  · exact (Except.ok.inj checked).symm
  · cases checked

/-- Loaded settings are told one by one. The environment is the one that its variable names. Each
other setting is the number of its plain variable, if it has one that holds a number in range; else it
is the value given last in the entries of all layers, or what it is by default if none is given or its
group has been cleared since; where a list stands for its group, it is the item in its place. If no
entry makes anything else of a group than a table, it is the value given last, whatever is said of
other settings, or what it is by default if there is none. -/
theorem load_told {files : SettingsFiles} {vars : EnvFile.Variables} {s : Settings}
    (loaded : load files vars = .ok s) :
    s.app.environment = (vars.lookup "BEACON_ENVIRONMENT").getD "development" ∧
    ∃ all, layersOf files vars = .ok all ∧
      s.ToldBy vars (fun leaf => leaf.told? all.flatten) ∧
      ((∀ leaf ∈ leafSettings, ∀ entry ∈ all.flatten, Tree.clears leaf.group entry = false) →
        s.ToldBy vars fun leaf => Tree.lastValue leaf.group leaf.name all.flatten) := by
  obtain ⟨t, read, together, done, rfl⟩ := of_load loaded
  obtain ⟨all, those, rfl⟩ := of_layers together
  have told : (overlaid vars read).ToldBy vars fun leaf => leaf.told? all.flatten := by
    intro leaf member
    have value := get_overlaid vars read leaf member
    cases plainly : leaf.plainNumber? vars with
    | some n =>
        rw [plainly] at value
        exact value
    | none =>
        rw [plainly] at value
        exact (LeafSetting.isRead_told (leafSettings_isOwn leaf member) done).of_same value
  refine ⟨rfl, all, those, told, fun calm leaf member => ?_⟩
  simpa only [leaf.told?_eq (calm leaf member)] using told leaf member

/-! ### Layers beside and over each other -/

theorem ok_of_toOption {ε γ : Type} {first : Except ε γ} {c : γ} (done : first.toOption = some c) :
    first = .ok c := by
  cases first with
  | error e => cases done
  | ok d => exact congrArg Except.ok (Option.some.inj done)

/-- Files of three layers, each of which sets some settings of a group and leaves the others alone. -/
def stagingFiles : SettingsFiles := [
  ("default", "[app]\nname = \"courier\"\n[jobs]\nmax_workers = 3\nbatch_size = 20\n"),
  ("staging", "[jobs]\nbatch_size = 40\nsend_timeout_secs = \"12\"\n"),
  ("local", "app.environment = \"elsewhere\"\n[jobs]\nresult_timeout_secs = 60\n")]

/-- The name of the environment, and three plain variables, one of which holds a number in range. -/
def stagingVariables : EnvFile.Variables := [
  ("BEACON_ENVIRONMENT", "staging"), ("JOB_MAX_WORKERS", " 8 "),
  ("JOB_BATCH_SIZE", "not-a-number"), ("EXPORT_FILE_EXPIRATION_DAYS", "99999999999")]

/-- What they are together. -/
def stagingSettings : Settings where
  app := ⟨"courier", "0.1.0", "staging"⟩
  database := .default
  jobs := ⟨8, 40, 5, "0 * * * * *", 12, 60, 10, 30, 30⟩
  log := .default

/-- No layer puts a setting back that it does not set. -/
theorem load_told_staging : load stagingFiles stagingVariables = .ok stagingSettings ∧
    ∃ all, layersOf stagingFiles stagingVariables = .ok all ∧
      stagingSettings.ToldBy stagingVariables fun leaf =>
        Tree.lastValue leaf.group leaf.name all.flatten := by
  have loaded : load stagingFiles stagingVariables = .ok stagingSettings :=
    ok_of_toOption (by decide +kernel)
  obtain ⟨_, all, those, _, calmly⟩ := load_told loaded
  have checked : ((layersOf stagingFiles stagingVariables).map fun all =>
      all.flatten.all fun entry => leafSettings.all fun leaf => !Tree.clears leaf.group entry) =
      .ok true := ok_of_toOption (by decide +kernel)
  rw [those] at checked
  refine ⟨loaded, all, those, calmly fun leaf member entry inside => ?_⟩
  have each := List.all_eq_true.mp (Except.ok.inj checked) entry inside
  simpa using List.all_eq_true.mp each leaf member

/-- A file of default values, and a local one that gives all settings of the jobs as a list of
none. -/
def emptiedFiles : SettingsFiles :=
  [("default", "[jobs]\nbatch_size = 20\n"), ("local", "jobs = []\n")]

/-- A list without items puts the settings of its group back, which it does not set: the value given
last, twenty, does not tell how many jobs are fetched at once. -/
theorem load_emptied : ∃ s all, load emptiedFiles [] = .ok s ∧ layersOf emptiedFiles [] = .ok all ∧
    s.jobs.batchSize = 50 ∧
    ¬ s.ToldBy [] fun leaf => Tree.lastValue leaf.group leaf.name all.flatten := by
  have loaded : load emptiedFiles [] = .ok .default := ok_of_toOption (by decide +kernel)
  obtain ⟨_, all, those, _⟩ := load_told loaded
  refine ⟨.default, all, loaded, those, rfl, fun told => ?_⟩
  have given : ((layersOf emptiedFiles []).map fun all =>
      ((Tree.lastValue "jobs" "batch_size" all.flatten).map fun t =>
        (LeafSetting.batchSize.kind.read t).toOption)) = .ok (some (some (.number 20))) :=
    ok_of_toOption (by decide +kernel)
  rw [those] at given
  obtain ⟨t, last, read⟩ := Option.map_eq_some_iff.mp (Except.ok.inj given)
  have member : LeafSetting.batchSize ∈ leafSettings := List.mem_of_getElem? (i := 6) rfl
  have batch : IsRead LeafSetting.batchSize.get LeafSetting.batchSize.kind.read .default .default
      (Tree.lastValue "jobs" "batch_size" all.flatten) := told .batchSize member
  rw [last] at batch
  have fifty : LeafSetting.batchSize.kind.read t = .ok (.number 50) := batch
  rw [fifty] at read
  cases read

end Settings

end JobQueue
