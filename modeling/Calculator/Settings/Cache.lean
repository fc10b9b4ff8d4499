/-
**The settings in use.**

Settings are built from the environment when they are first asked for, and kept.  Later changes of
the environment do not show until the kept settings are dropped.  Settings that cannot be built are
not kept, so that the next request builds anew.

Main definitions:

* `Calculator.SettingsStore` — the environment and the settings that are kept;
* `Calculator.SettingsStore.get` — the settings in use;
* `Calculator.SettingsStore.run` — a sequence of changes and requests.

Main results:

* `Calculator.SettingsStore.get_of_kept` — what is kept is in use, whatever the environment;
* `Calculator.SettingsStore.get_of_error` — what cannot be built leaves the store as it was;
* `Calculator.SettingsStore.fst_get_of_none` — where nothing is kept the settings are built.
-/

import Calculator.Settings.Basic

namespace Calculator

/-- The environment, and the settings that are kept. -/
structure SettingsStore where
  environment : Environment
  kept : Option Settings
  deriving DecidableEq

namespace SettingsStore

/-- A store in which nothing is kept. -/
def ofEnvironment (environment : Environment) : SettingsStore := ⟨environment, none⟩

/-- The settings in use, and the store that keeps them. -/
def get (store : SettingsStore) : Except Settings.Fault Settings × SettingsStore :=
  match store.kept with
  | some settings => (.ok settings, store)
  | none =>
      match Settings.build store.environment [] with
      | .ok settings => (.ok settings, { store with kept := some settings })
      | .error fault => (.error fault, store)

/-- What is kept is in use, whatever the environment. -/
theorem get_of_kept {store : SettingsStore} {settings : Settings} (h : store.kept = some settings) :
    store.get = (.ok settings, store) := by
  simp [get, h]

/-- What cannot be built leaves the store as it was. -/
theorem get_of_error {store : SettingsStore} {fault : Settings.Fault} (hk : store.kept = none)
    (h : Settings.build store.environment [] = .error fault) :
    store.get = (.error fault, store) := by
  simp [get, hk, h]

/-- Where nothing is kept the settings are built. -/
theorem fst_get_of_none {store : SettingsStore} (h : store.kept = none) :
    store.get.1 = Settings.build store.environment [] := by
  cases hbuilt : Settings.build store.environment [] with
  | error fault => rw [get_of_error h hbuilt]
  | ok settings => simp [get, h, hbuilt]

/-! ### Sequences of steps -/

/-- A change of the environment, or a request for the settings. -/
inductive Step where
  | set (pairs : List (String × String))
  | unset (name : String)
  | clear
  | settings
  /-- Asks for the limit with which a service is made. -/
  | limit
  deriving DecidableEq

/-- What a step answers. -/
inductive Answer where
  | done
  | settings (result : Except Settings.Fault Settings)
  | limit (result : Except Settings.Fault Int)

/-- One step. -/
def step (store : SettingsStore) : Step → Answer × SettingsStore
  | .set pairs => (.done, { store with environment := store.environment.setAll pairs })
  | .unset name => (.done, { store with environment := store.environment.unset name })
  | .clear => (.done, { store with kept := none })
  | .settings => store.get.map .settings id
  | .limit => store.get.map (fun result => .limit (result.map (·.maxExpressionLength))) id

/-- The answers of a sequence of steps. -/
def run (store : SettingsStore) : List Step → List Answer
  | [] => []
  | s :: steps => (store.step s).1 :: (store.step s).2.run steps

@[simp] theorem length_run (store : SettingsStore) (steps : List Step) :
    (store.run steps).length = steps.length := by
  induction steps generalizing store with
  | nil => rfl
  | cons s steps ih => simp [run, ih]

end SettingsStore

end Calculator
