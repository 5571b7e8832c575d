/-
Settings that are held while files and variables change.

A load succeeds with the settings that all layers and the plain variables make, if these are in
order (`Settings.load_eq_ok_iff`); it fails where a file that is there cannot be read, a value
cannot be converted, or the settings are not in order (`Settings.load_eq_error_iff`). Once a first
load has succeeded, files are edited, variables are changed and settings are loaded again, in any
order (`Keeper.after`). The settings held are always in order, and are those of the last load that
succeeded; a load that fails, for whatever reason, leaves them as they were
(`Keeper.holds_lastLoaded`).
-/

import JobQueue.Proofs.Settings.Loading

namespace JobQueue

variable {files : SettingsFiles} {vars : EnvFile.Variables}

/-! ### How a load ends -/

namespace Settings

variable {s : Settings} {e : ServiceError}

/-- Plain variables that are applied again change nothing. -/
theorem overlaid_overlaid (vars : EnvFile.Variables) (s : Settings) :
    overlaid vars (overlaid vars s) = overlaid vars s := by
  have again (number : Option Nat) (other : Nat) :
      number.getD (number.getD other) = number.getD other := by
    cases number <;> rfl
  simp only [overlaid, withPlainVariables, again]

theorem bind_eq_error_iff {ε γ δ : Type} {first : Except ε γ} {next : γ → Except ε δ} {cause : ε} :
    (first >>= next) = .error cause ↔
      first = .error cause ∨ ∃ c, first = .ok c ∧ next c = .error cause := by
  cases first <;> simp [bind, Except.bind]

/-- Files cannot be put together only where one that is there cannot be read. -/
theorem fileLayers_eq_error_iff {names : List String} {t : Tree} :
    fileLayers files names t = .error e ↔
      (∃ name ∈ names, ∃ document, files.lookup name = some document ∧
        Toml.read document = none) ∧ e = .configuration "TOML parse error" := by
  induction names generalizing t with
  | nil => simp [fileLayers]
  | cons name names ih =>
      rw [fileLayers]
      cases found : files.lookup name with
      | none => simp [ih, found]
      | some document =>
          dsimp only
          rw [bind_eq_error_iff, fileLayer]
          cases read : Toml.read document with
          | none => simp [found, read, eq_comm]
          | some fields => simp [ih, found, read]

/-- Why settings cannot be loaded, with the error that says so. -/
inductive Refusal (files : SettingsFiles) (vars : EnvFile.Variables) : ServiceError → Prop where
  /-- A file that is there is no document. -/
  | malformed {name document : String} (asked : name ∈ fileNames (environmentOf vars))
      (there : files.lookup name = some document) (unread : Toml.read document = none) :
      Refusal files vars (.configuration "TOML parse error")
  /-- A value is not of the kind that its setting is. -/
  | unconverted {t : Tree} {cause : LayerError} (together : layers files vars = .ok t)
      (refused : t.asSettings = .error cause) : Refusal files vars (.configuration cause.message)
  /-- The settings are not in order, the plain variables among them. -/
  | disordered {t : Tree} {read : Settings} (together : layers files vars = .ok t)
      (converted : t.asSettings = .ok read) (bad : ¬ (overlaid vars read).Valid) :
      Refusal files vars (problemError (overlaid vars read).problems)

theorem layers_eq_error_iff : layers files vars = .error e ↔
    (∃ name ∈ fileNames (environmentOf vars), ∃ document, files.lookup name = some document ∧
      Toml.read document = none) ∧ e = .configuration "TOML parse error" := by
  rw [layers, bind_eq_error_iff, fileLayers_eq_error_iff]
  simp

/-- What is done with the layers once they are put together. -/
theorem load_of_layers {t : Tree} (together : layers files vars = .ok t) :
    load files vars =
      match t.asSettings with
      | .error cause => .error (.configuration cause.message)
      | .ok read =>
          if (overlaid vars read).Valid then .ok (overlaid vars read)
          else .error (problemError (overlaid vars read).problems) := by
  rw [load, bind_ok together]
  cases t.asSettings with
  | error cause => rfl
  | ok read =>
      simp only [Valid, ← List.isEmpty_iff]
      rfl

/-- Settings that are loaded are in order, and the plain variables are among them. -/
theorem load_eq_ok_iff : load files vars = .ok s ↔
    ∃ t read, layers files vars = .ok t ∧ t.asSettings = .ok read ∧ s = overlaid vars read ∧
      s.Valid := by
  constructor
  · intro loaded
    obtain ⟨t, read, together, converted, rfl⟩ := of_load loaded
    rw [load_of_layers together, converted] at loaded
    dsimp only at loaded
    split at loaded
    next valid => exact ⟨t, read, together, converted, rfl, valid⟩
    next => cases loaded
  · rintro ⟨t, read, together, converted, rfl, valid⟩
    rw [load_of_layers together, converted]
    exact if_pos valid

/-- A load fails for three reasons only. -/
theorem load_eq_error_iff : load files vars = .error e ↔ Refusal files vars e := by
  constructor
  · intro failed
    cases together : layers files vars with
    | error e' =>
        obtain ⟨⟨name, asked, document, there, unread⟩, rfl⟩ := layers_eq_error_iff.mp together
        rw [load, together] at failed
        cases failed
        exact .malformed asked there unread
    | ok t =>
        rw [load_of_layers together] at failed
        cases converted : t.asSettings with
        | error cause =>
            rw [converted] at failed
            cases failed
            exact .unconverted together converted
        | ok read =>
            rw [converted] at failed
            dsimp only at failed
            split at failed
            next => cases failed
            next bad =>
              cases failed
              exact .disordered together converted bad
  · intro refusal
    cases refusal with
    | malformed asked there unread =>
        exact bind_eq_error_iff.mpr
          (.inl (layers_eq_error_iff.mpr ⟨⟨_, asked, _, there, unread⟩, rfl⟩))
    | unconverted together refused => rw [load_of_layers together, refused]
    | disordered together converted bad =>
        rw [load_of_layers together, converted]
        exact if_neg bad

end Settings

/-! ### Loading again and again -/

/-- What settings are loaded from. -/
structure Setup where
  files : SettingsFiles
  vars : EnvFile.Variables

/-- Loads settings. -/
def Setup.load (setup : Setup) : Except ServiceError Settings :=
  Settings.load setup.files setup.vars

/-- Settings that are held, and what they would be loaded from now. -/
structure Keeper where
  setup : Setup
  loaded : Loaded

namespace Keeper

/-- What happens while settings are held. -/
inductive Event where
  /-- These files are there from now on. -/
  | edit (files : SettingsFiles)
  /-- These variables are set from now on. -/
  | setVariables (vars : EnvFile.Variables)
  /-- The settings are to be loaded again. -/
  | reload

/-- Loads settings for the first time; variables that are not set are taken from a file of
variables. -/
def start (setup : Setup) (dotenv : String) : Except ServiceError Keeper :=
  let setup := { setup with vars := EnvFile.apply setup.vars dotenv }
  (Loaded.start setup.files setup.vars).map fun loaded => ⟨setup, loaded⟩

/-- Loads the settings again, with the answer to that. -/
def reload (k : Keeper) : Except ServiceError Unit × Keeper :=
  let (answer, loaded) := k.loaded.reload k.setup.files k.setup.vars
  (answer, { k with loaded := loaded })

/-- What an event leaves. -/
def step (k : Keeper) : Event → Keeper
  | .edit files => { k with setup := { k.setup with files := files } }
  | .setVariables vars => { k with setup := { k.setup with vars := vars } }
  | .reload => k.reload.2

/-- What events leave, one after another. -/
def after (k : Keeper) (events : List Event) : Keeper := events.foldl step k

end Keeper

/-- What the settings were loaded from again each time, in the order of these times. -/
def Setup.reloads : Setup → List Keeper.Event → List Setup
  | _, [] => []
  | setup, .edit files :: events => { setup with files := files }.reloads events
  | setup, .setVariables vars :: events => { setup with vars := vars }.reloads events
  | setup, .reload :: events => setup :: setup.reloads events

/-- Whether settings are those of the last load that succeeded. -/
def LastLoaded (s : Settings) (loads : List Setup) : Prop :=
  ∃ earlier last later, loads = earlier ++ last :: later ∧
    (last.load = .ok s ∧ s.Valid ∧ Settings.overlaid last.vars s = s) ∧
    ∀ setup ∈ later, ∃ e, setup.load = .error e

namespace LastLoaded

variable {s s' : Settings} {loads : List Setup} {setup : Setup} {e : ServiceError}

theorem succeeded (loaded : setup.load = .ok s) : LastLoaded s (loads ++ [setup]) := by
  obtain ⟨t, read, together, converted, rfl, valid⟩ := Settings.load_eq_ok_iff.mp loaded
  exact ⟨loads, setup, [], rfl, ⟨loaded, valid, Settings.overlaid_overlaid _ _⟩, nofun⟩

theorem failed (last : LastLoaded s loads) (refused : setup.load = .error e) :
    LastLoaded s (loads ++ [setup]) := by
  obtain ⟨earlier, load, later, rfl, isLoaded, failures⟩ := last
  refine ⟨earlier, load, later ++ [setup], ?_, isLoaded, fun other member => ?_⟩
  · rw [List.append_assoc, List.cons_append]
  · rcases List.mem_append.mp member with earlier | here
    · exact failures other earlier
    · exact ⟨e, List.mem_singleton.mp here ▸ refused⟩

end LastLoaded

namespace Keeper

variable {k : Keeper} {loads : List Setup} {e : ServiceError} {s : Settings}

theorem reload_of_ok (loaded : k.setup.load = .ok s) :
    k.reload = (.ok (), { k with loaded := ⟨s⟩ }) := by
  have same : Settings.load k.setup.files k.setup.vars = .ok s := loaded
  rw [reload, Loaded.reload, same]

theorem reload_of_error (refused : k.setup.load = .error e) : k.reload = (.error e, k) := by
  have same : Settings.load k.setup.files k.setup.vars = .error e := refused
  rw [reload, Loaded.reload, same]

/-- A reload fails just where a load would, with its error. -/
theorem reload_eq_error_iff : k.reload.1 = .error e ↔ k.setup.load = .error e := by
  cases load : k.setup.load with
  | error e' => simp [reload_of_error load]
  | ok s => simp [reload_of_ok load]

/-- What one event does to the settings held. -/
theorem lastLoaded_step (last : LastLoaded k.loaded.settings loads) (event : Event) :
    LastLoaded (k.step event).loaded.settings (loads ++ k.setup.reloads [event]) := by
  cases event with
  | edit files => simpa only [step, Setup.reloads, List.append_nil] using last
  | setVariables vars => simpa only [step, Setup.reloads, List.append_nil] using last
  | reload =>
      rw [step, Setup.reloads, Setup.reloads]
      cases load : k.setup.load with
      | ok s =>
          rw [reload_of_ok load]
          exact .succeeded load
      | error e =>
          rw [reload_of_error load]
          exact last.failed load

/-- The loads of an event and of those after it. -/
theorem reloads_cons (event : Event) (events : List Event) :
    k.setup.reloads (event :: events) =
      k.setup.reloads [event] ++ (k.step event).setup.reloads events := by
  cases event <;> rfl

theorem lastLoaded_after (last : LastLoaded k.loaded.settings loads) (events : List Event) :
    LastLoaded (k.after events).loaded.settings (loads ++ k.setup.reloads events) := by
  induction events generalizing k loads with
  | nil =>
      rw [Setup.reloads, List.append_nil]
      exact last
  | cons event events ih =>
      rw [reloads_cons, ← List.append_assoc]
      exact ih (lastLoaded_step last event)

/-- Settings that are held after a first load has succeeded: whatever has been edited and changed
since and however often they have been loaded again, they are in order with the plain variables
among them, and they are those of the last load that succeeded. A load again fails where a file
cannot be read, a value cannot be converted or the settings are not in order, and then nothing of
what is held has changed. -/
theorem holds_lastLoaded {setup : Setup} {dotenv : String} (begun : start setup dotenv = .ok k)
    (events : List Event) :
    (k.after events).loaded.settings.Valid ∧
    LastLoaded (k.after events).loaded.settings (k.setup :: k.setup.reloads events) ∧
    ∀ e, ((k.after events).reload.1 = .error e ↔
        Settings.Refusal (k.after events).setup.files (k.after events).setup.vars e) ∧
      ((k.after events).reload.1 = .error e → (k.after events).reload.2 = k.after events) := by
  have first : k.setup.load = .ok k.loaded.settings := by
    obtain ⟨loaded, first, rfl⟩ := of_map_ok begun
    obtain ⟨s, done, rfl⟩ := of_map_ok first
    exact done
  have single : LastLoaded k.loaded.settings ([] ++ [k.setup]) := .succeeded first
  have last := lastLoaded_after single events
  refine ⟨?_, last, fun e => ⟨?_, fun refused => ?_⟩⟩
  · obtain ⟨earlier, load, later, _, ⟨_, valid, _⟩, _⟩ := last
    exact valid
  · rw [reload_eq_error_iff, Setup.load, Settings.load_eq_error_iff]
  · rw [reload_of_error (reload_eq_error_iff.mp refused)]

/-- A file that asks for three workers; how many jobs are fetched at once is left to the variables. -/
def restlessSetup : Setup := ⟨[("default", "[jobs]\nmax_workers = 3\n")], []⟩

/-- The file breaks off, is mended while a plain variable is set, and then asks for no jobs at all.
The settings are loaded again each time. -/
def restlessEvents : List Event := [
  .edit [("default", "[jobs\nmax_workers = ")], .reload,
  .setVariables [("JOB_MAX_WORKERS", " 8 ")], .reload,
  .edit [("default", "[jobs]\nmax_workers = 4\nsend_timeout_secs = 12\n")], .reload,
  .edit [("default", "[jobs]\nbatch_size = 0\n")], .reload]

/-- Only the third load again succeeds, and what it gave is held. -/
theorem holds_lastLoaded_restless : ∃ k, start restlessSetup "JOB_BATCH_SIZE=7\n" = .ok k ∧
    k.loaded.settings.jobs.batchSize = 7 ∧
    (k.after restlessEvents).loaded.settings =
      { Settings.default with
        jobs := { JobsSettings.default with maxWorkers := 8, sendSeconds := 12 } } ∧
    (k.after restlessEvents).loaded.settings.Valid ∧
    LastLoaded (k.after restlessEvents).loaded.settings
      (k.setup :: k.setup.reloads restlessEvents) ∧
    (k.after restlessEvents).reload.1 = .error (.configuration
      "Configuration validation failed:\n  - Job batch_size must be greater than 0") ∧
    (k.after restlessEvents).reload.2 = k.after restlessEvents := by
  let setup : Setup :=
    ⟨restlessSetup.files, EnvFile.apply restlessSetup.vars "JOB_BATCH_SIZE=7\n"⟩
  let s : Settings := { Settings.default with
    jobs := { JobsSettings.default with maxWorkers := 3, batchSize := 7 } }
  let k : Keeper := ⟨setup, ⟨s⟩⟩
  have loaded : setup.load = .ok s := Settings.ok_of_toOption (by decide +kernel)
  have begun : start restlessSetup "JOB_BATCH_SIZE=7\n" = .ok k :=
    map_ok (map_ok loaded Loaded.mk) (Keeper.mk setup)
  obtain ⟨valid, last, refusal⟩ := holds_lastLoaded begun restlessEvents
  have told : (match (k.after restlessEvents).reload.1 with
      | .error e => some e
      | .ok () => none) = some (.configuration
        "Configuration validation failed:\n  - Job batch_size must be greater than 0") := by
    decide +kernel
  cases answer : (k.after restlessEvents).reload.1 with
  | ok _ =>
      rw [answer] at told
      cases told
  | error e =>
      rw [answer] at told
      obtain rfl := Option.some.inj told
      exact ⟨k, begun, rfl, by decide +kernel, valid, last, answer, (refusal _).2 answer⟩

end Keeper

end JobQueue
