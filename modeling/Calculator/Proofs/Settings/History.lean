/-
**The settings in use follow the environment.**

Settings that are in use were built for some request for them, in the environment as it stood then.
Which request this was can be told from the steps alone: it is the first one since the last clearing
whose environment had settings.  So what a request is answered with is known from the steps before
it, and where no settings are in use it is what its own environment gives.

Main definitions:

* `Calculator.SettingsStore.Step.Asks`, `Calculator.SettingsStore.Step.told` — requests for the
  settings, and what they are told;
* `Calculator.SettingsStore.environmentAt`, `Calculator.SettingsStore.after` — the environment
  before a step, and the store after steps;
* `Calculator.SettingsStore.KeptFrom` — the request for which the settings in use were built.

Main results:

* `Calculator.SettingsStore.step_of_asks`, `Calculator.SettingsStore.step_of_not_asks` — what a step
  does;
* `Calculator.SettingsStore.KeptFrom.unique`, `Calculator.SettingsStore.exists_keptFrom` — there is
  at most one such request, and there is one if any request could have been the one;
* `Calculator.SettingsStore.kept_after_take_iff` — the store keeps what was built for it;
* `Calculator.SettingsStore.run_follows_environment` — **the settings in use follow the
  environment**.
-/

import Calculator.Settings.Cache
import Mathlib.Data.List.Basic

set_option relaxedAutoImplicit false
set_option autoImplicit false

namespace Calculator.SettingsStore

open Settings (Fault)

/-! ### Steps -/

/-- The step asks for the settings, or for the limit in them. -/
def Step.Asks : Step → Prop
  | .settings | .limit => True
  | .set _ | .unset _ | .clear => False

/-- What a request is told about the settings in use. -/
def Step.told (result : Except Fault Settings) : Step → Answer
  | .settings => .settings result
  | .limit => .limit (result.map (·.maxExpressionLength))
  | .set _ | .unset _ | .clear => .done

/-- The environment after a step. -/
def changed (environment : Environment) : Step → Environment
  | .set pairs => environment.setAll pairs
  | .unset name => environment.unset name
  | .clear | .settings | .limit => environment

/-- A request is told about the settings in use, which are kept. -/
theorem step_of_asks {s : Step} (h : s.Asks) (store : SettingsStore) :
    store.step s = (s.told store.get.1, store.get.2) := by
  cases s with
  | settings => rfl
  | limit => rfl
  | set pairs => exact h.elim
  | unset name => exact h.elim
  | clear => exact h.elim

/-- Any other step but a clearing changes the environment only. -/
theorem step_of_not_asks {s : Step} (h : ¬ s.Asks) (hclear : s ≠ .clear) (store : SettingsStore) :
    (store.step s).2 = ⟨changed store.environment s, store.kept⟩ := by
  cases s with
  | settings => exact absurd trivial h
  | limit => exact absurd trivial h
  | set pairs => rfl
  | unset name => rfl
  | clear => exact absurd rfl hclear

/-- Asking does not change the environment. -/
theorem environment_get (store : SettingsStore) :
    store.get.2.environment = store.environment := by
  unfold get
  split
  · rfl
  · split <;> rfl

/-- No step does more to the environment than its change. -/
theorem environment_step (store : SettingsStore) (s : Step) :
    (store.step s).2.environment = changed store.environment s := by
  cases s with
  | set pairs => rfl
  | unset name => rfl
  | clear => rfl
  | settings => exact store.environment_get
  | limit => exact store.environment_get

/-! ### Runs -/

/-- The store after steps. -/
def after (store : SettingsStore) : List Step → SettingsStore
  | [] => store
  | s :: steps => (store.step s).2.after steps

theorem after_concat (store : SettingsStore) (steps : List Step) (s : Step) :
    store.after (steps ++ [s]) = ((store.after steps).step s).2 := by
  induction steps generalizing store with
  | nil => rfl
  | cons first steps ih => exact ih (store.step first).2

/-- A step is answered by the store that the steps before it have left. -/
theorem getElem?_run (store : SettingsStore) {steps : List Step} {i : Nat} {s : Step}
    (h : steps[i]? = some s) :
    (store.run steps)[i]? = some ((store.after (steps.take i)).step s).1 := by
  induction steps generalizing store i with
  | nil => cases h
  | cons first steps ih =>
      cases i with
      | zero =>
          obtain rfl := Option.some.inj h
          rfl
      | succ i => exact ih (store.step first).2 h

/-- The environment as it stands before the step of a number. -/
def environmentAt (environment : Environment) (steps : List Step) (i : Nat) : Environment :=
  (steps.take i).foldl changed environment

theorem environment_after (store : SettingsStore) (steps : List Step) :
    (store.after steps).environment = steps.foldl changed store.environment := by
  induction steps generalizing store with
  | nil => rfl
  | cons s steps ih => rw [after, ih, environment_step, List.foldl_cons]

/-! ### The settings in use -/

variable {environment : Environment} {steps : List Step}

/-- Before the step of number `i` the settings are in use that were built for the request of number
`j`: they have not been cleared since, and no earlier request could have settings built without
their being cleared before `j`. -/
structure KeptFrom (environment : Environment) (steps : List Step) (i j : Nat)
    (settings : Settings) : Prop where
  before : j < i
  asks : ∃ s, steps[j]? = some s ∧ s.Asks
  built : Settings.build (environmentAt environment steps j) [] = .ok settings
  not_cleared : ∀ k, j < k → k < i → steps[k]? ≠ some .clear
  first : ∀ k s, k < j → steps[k]? = some s → s.Asks →
    (∃ fault, Settings.build (environmentAt environment steps k) [] = .error fault) ∨
      ∃ l, k < l ∧ l < j ∧ steps[l]? = some .clear

/-- A request is no clearing. -/
theorem not_clear_of_asks {j : Nat} (h : ∃ s, steps[j]? = some s ∧ s.Asks) :
    steps[j]? ≠ some .clear := by
  obtain ⟨s, hs, hasks⟩ := h
  intro hclear
  obtain rfl := Option.some.inj (hs.symm.trans hclear)
  exact hasks

/-- What is in use was not built before something else that is in use. -/
theorem KeptFrom.le {i j k : Nat} {settings other : Settings}
    (h : KeptFrom environment steps i j settings) (h' : KeptFrom environment steps i k other) :
    j ≤ k := by
  by_contra hlt
  rw [Nat.not_le] at hlt
  obtain ⟨s, hs, hasks⟩ := h'.asks
  rcases h.first k s hlt hs hasks with ⟨fault, hfault⟩ | ⟨l, hkl, hlj, hclear⟩
  · rw [h'.built] at hfault
    cases hfault
  · exact h'.not_cleared l hkl (Nat.lt_trans hlj h.before) hclear

/-- At most one result is in use. -/
theorem KeptFrom.unique {i j k : Nat} {settings other : Settings}
    (h : KeptFrom environment steps i j settings) (h' : KeptFrom environment steps i k other) :
    settings = other := by
  obtain rfl := Nat.le_antisymm (h.le h') (h'.le h)
  exact Except.ok.inj (h.built.symm.trans h'.built)

/-- If settings were built for a request and have not been cleared since, then some are in use. -/
theorem exists_keptFrom {i k : Nat} {settings : Settings} (hk : k < i)
    (hasks : ∃ s, steps[k]? = some s ∧ s.Asks)
    (hbuilt : Settings.build (environmentAt environment steps k) [] = .ok settings)
    (hkeep : ∀ l, k < l → l < i → steps[l]? ≠ some .clear) :
    ∃ j other, KeptFrom environment steps i j other := by
  -- if `k` is not the first such request, then an earlier one is such a request as well
  induction k using Nat.strongRecOn generalizing settings with
  | ind k ih =>
    by_cases hfirst : ∃ j s other, j < k ∧ steps[j]? = some s ∧ s.Asks ∧
        Settings.build (environmentAt environment steps j) [] = .ok other ∧
        ∀ l, j < l → l < k → steps[l]? ≠ some .clear
    · obtain ⟨j, s, other, hj, hs, hs', hother, hbetween⟩ := hfirst
      refine ih j hj (Nat.lt_trans hj hk) ⟨s, hs, hs'⟩ hother ?_
      intro l hjl hli
      rcases Nat.lt_trichotomy l k with hlt | rfl | hgt
      · exact hbetween l hjl hlt
      · exact not_clear_of_asks hasks
      · exact hkeep l hgt hli
    · refine ⟨k, settings, hk, hasks, hbuilt, hkeep, ?_⟩
      intro j s hj hs hs'
      by_contra hnone
      rw [not_or] at hnone
      obtain ⟨hfault, hclear⟩ := hnone
      cases hother : Settings.build (environmentAt environment steps j) [] with
      | error fault => exact hfault ⟨fault, hother⟩
      | ok other =>
          exact hfirst ⟨j, s, other, hj, hs, hs', hother,
            fun l hjl hlk heq => hclear ⟨l, hjl, hlk, heq⟩⟩

/-- What is in use stays in use, unless it is cleared. -/
theorem KeptFrom.succ {i j : Nat} {settings : Settings}
    (h : KeptFrom environment steps i j settings) (hi : steps[i]? ≠ some .clear) :
    KeptFrom environment steps (i + 1) j settings where
  before := Nat.lt_succ_of_lt h.before
  asks := h.asks
  built := h.built
  not_cleared k hjk hki := by
    rcases Nat.lt_succ_iff_lt_or_eq.1 hki with hlt | rfl
    · exact h.not_cleared k hjk hlt
    · exact hi
  first := h.first

/-- What is in use after a step was built for it, or was in use before it. -/
theorem KeptFrom.of_succ {i j : Nat} {settings : Settings}
    (h : KeptFrom environment steps (i + 1) j settings) :
    j = i ∨ steps[i]? ≠ some .clear ∧ KeptFrom environment steps i j settings := by
  rcases Nat.lt_succ_iff_lt_or_eq.1 h.before with hlt | heq
  · refine .inr ⟨h.not_cleared i hlt (Nat.lt_succ_self i), hlt, h.asks, h.built, ?_, h.first⟩
    intro k hjk hki
    exact h.not_cleared k hjk (Nat.lt_succ_of_lt hki)
  · exact .inl heq

/-- A request finds the settings that are in use. -/
theorem exists_keptFrom_succ_iff {i j : Nat} {kept settings : Settings}
    (hasks : ∃ s, steps[i]? = some s ∧ s.Asks) (h : KeptFrom environment steps i j kept) :
    (∃ k, KeptFrom environment steps (i + 1) k settings) ↔ settings = kept := by
  have hnext := h.succ (not_clear_of_asks hasks)
  constructor
  · rintro ⟨k, hk⟩
    exact hk.unique hnext
  · rintro rfl
    exact ⟨j, hnext⟩

/-- A request that finds no settings in use has them built. -/
theorem exists_keptFrom_succ_iff_of_none {i : Nat} {settings : Settings}
    (hasks : ∃ s, steps[i]? = some s ∧ s.Asks)
    (hnone : ∀ j other, ¬ KeptFrom environment steps i j other) :
    (∃ k, KeptFrom environment steps (i + 1) k settings) ↔
      Settings.build (environmentAt environment steps i) [] = .ok settings := by
  constructor
  · rintro ⟨k, hk⟩
    rcases hk.of_succ with rfl | ⟨-, hk⟩
    · exact hk.built
    · exact absurd hk (hnone k settings)
  · intro hbuilt
    refine ⟨i, Nat.lt_succ_self i, hasks, hbuilt, fun k hik hki => by omega, ?_⟩
    intro k s hk hs hs'
    by_contra hfail
    rw [not_or] at hfail
    cases hother : Settings.build (environmentAt environment steps k) [] with
    | error fault => exact hfail.1 ⟨fault, hother⟩
    | ok other =>
        obtain ⟨j, first, hj⟩ := exists_keptFrom hk ⟨s, hs, hs'⟩ hother
          fun l hkl hli heq => hfail.2 ⟨l, hkl, hli, heq⟩
        exact hnone j first hj

/-- After a clearing nothing is in use. -/
theorem not_keptFrom_succ {i j : Nat} {settings : Settings} (hi : steps[i]? = some .clear) :
    ¬ KeptFrom environment steps (i + 1) j settings := by
  intro h
  rcases h.of_succ with rfl | ⟨hne, -⟩
  · exact not_clear_of_asks h.asks hi
  · exact hne hi

/-- A change of the environment does not show. -/
theorem keptFrom_succ_iff_of_not_asks {i j : Nat} {s : Step} {settings : Settings}
    (hs : steps[i]? = some s) (hasks : ¬ s.Asks) (hclear : s ≠ .clear) :
    KeptFrom environment steps (i + 1) j settings ↔ KeptFrom environment steps i j settings := by
  constructor
  · intro h
    rcases h.of_succ with rfl | ⟨-, h⟩
    · obtain ⟨s', hs', hasks'⟩ := h.asks
      obtain rfl := Option.some.inj (hs.symm.trans hs')
      exact absurd hasks' hasks
    · exact h
  · intro h
    exact h.succ fun heq => hclear (Option.some.inj (hs.symm.trans heq))

/-- **The store keeps what is in use**: it holds the settings that were built for the first request
since the last clearing whose environment had some. -/
theorem kept_after_take_iff {i : Nat} (hi : i ≤ steps.length) {settings : Settings} :
    ((ofEnvironment environment).after (steps.take i)).kept = some settings ↔
      ∃ j, KeptFrom environment steps i j settings := by
  induction i generalizing settings with
  | zero =>
      refine iff_of_false (by simp [after, ofEnvironment]) ?_
      rintro ⟨j, h⟩
      exact Nat.not_lt_zero j h.before
  | succ i ih =>
      replace ih := fun settings => @ih (Nat.le_of_succ_le hi) settings
      obtain ⟨s, hs⟩ : ∃ s, steps[i]? = some s := ⟨_, List.getElem?_eq_getElem hi⟩
      have henvironment : ((ofEnvironment environment).after (steps.take i)).environment =
          environmentAt environment steps i := environment_after _ _
      rw [List.take_add_one, hs, Option.toList_some, after_concat]
      generalize (ofEnvironment environment).after (steps.take i) = store at ih henvironment
      by_cases hasks : s.Asks
      · rw [step_of_asks hasks]
        cases hkept : store.kept with
        | some kept =>
            obtain ⟨j, hj⟩ := (ih kept).1 hkept
            rw [get_of_kept hkept, hkept, exists_keptFrom_succ_iff ⟨s, hs, hasks⟩ hj,
              Option.some_inj, eq_comm]
        | none =>
            have hnone : ∀ j other, ¬ KeptFrom environment steps i j other := by
              intro j other hj
              have hsome := (ih other).2 ⟨j, hj⟩
              rw [hkept] at hsome
              cases hsome
            rw [exists_keptFrom_succ_iff_of_none ⟨s, hs, hasks⟩ hnone, ← henvironment]
            cases hbuilt : Settings.build store.environment [] with
            | error fault =>
                rw [get_of_error hkept hbuilt, hkept]
                simp
            | ok built => simp [get, hkept, hbuilt]
      · by_cases hclear : s = .clear
        · subst hclear
          refine iff_of_false (by simp [step]) ?_
          rintro ⟨j, hj⟩
          exact not_keptFrom_succ hs hj
        · rw [step_of_not_asks hasks hclear]
          simp only [keptFrom_succ_iff_of_not_asks hs hasks hclear]
          exact ih settings

/-- A request is told of a fault only if its answer is one. -/
theorem told_error_inj {s : Step} (hasks : s.Asks) {result : Except Fault Settings} {fault : Fault}
    (h : s.told result = s.told (.error fault)) : result = .error fault := by
  cases s with
  | settings => exact Answer.settings.inj h
  | limit =>
      cases result with
      | error found => exact congrArg Except.error (Except.error.inj (Answer.limit.inj h))
      | ok settings => exact nomatch Answer.limit.inj h
  | set pairs => exact hasks.elim
  | unset name => exact hasks.elim
  | clear => exact hasks.elim

/-- **The settings in use follow the environment.**  A request, whether for the settings or for the
limit in them, is told of the settings that are in use, and otherwise of what its own environment
gives.  So it succeeds wherever its environment has settings, and if it fails nothing is kept. -/
theorem run_follows_environment (environment : Environment) {steps : List Step} {i : Nat} {s : Step}
    (hs : steps[i]? = some s) (hasks : s.Asks) :
    let answer := ((ofEnvironment environment).run steps)[i]?
    let built := Settings.build (environmentAt environment steps i) []
    (∀ j settings, KeptFrom environment steps i j settings →
      answer = some (s.told (.ok settings))) ∧
    ((∀ j settings, ¬ KeptFrom environment steps i j settings) → answer = some (s.told built)) ∧
    (∀ settings, built = .ok settings → ∃ found, answer = some (s.told (.ok found))) ∧
    ∀ fault, answer = some (s.told (.error fault)) →
      built = .error fault ∧
        ((ofEnvironment environment).after (steps.take (i + 1))).kept = none := by
  intro answer built
  have hi : i < steps.length := (List.getElem?_eq_some_iff.1 hs).1
  have hstep : answer = some (s.told ((ofEnvironment environment).after (steps.take i)).get.1) := by
    change ((ofEnvironment environment).run steps)[i]? = _
    rw [getElem?_run _ hs, step_of_asks hasks]
  have hkept : ∀ j settings, KeptFrom environment steps i j settings →
      answer = some (s.told (.ok settings)) := by
    intro j settings h
    rw [hstep, get_of_kept ((kept_after_take_iff (Nat.le_of_lt hi)).2 ⟨j, h⟩)]
  have hbuilt : (∀ j settings, ¬ KeptFrom environment steps i j settings) →
      answer = some (s.told built) := by
    intro hnone
    have hempty : ((ofEnvironment environment).after (steps.take i)).kept = none := by
      rw [Option.eq_none_iff_forall_ne_some]
      intro settings heq
      obtain ⟨j, h⟩ := (kept_after_take_iff (Nat.le_of_lt hi)).1 heq
      exact hnone j settings h
    rw [hstep, fst_get_of_none hempty, environment_after]
    rfl
  refine ⟨hkept, hbuilt, ?_, ?_⟩
  · intro settings hsettings
    by_cases hsome : ∃ j found, KeptFrom environment steps i j found
    · obtain ⟨j, found, h⟩ := hsome
      exact ⟨found, hkept j found h⟩
    · rw [hbuilt fun j found h => hsome ⟨j, found, h⟩, hsettings]
      exact ⟨settings, rfl⟩
  · intro fault hfault
    have hnone : ∀ j settings, ¬ KeptFrom environment steps i j settings := by
      intro j settings h
      rw [hkept j settings h] at hfault
      cases told_error_inj hasks (Option.some.inj hfault)
    have hfailed : built = .error fault := by
      rw [hbuilt hnone] at hfault
      exact told_error_inj hasks (Option.some.inj hfault)
    refine ⟨hfailed, ?_⟩
    rw [Option.eq_none_iff_forall_ne_some]
    intro settings heq
    have hnext := (exists_keptFrom_succ_iff_of_none ⟨s, hs, hasks⟩ hnone).1
      ((kept_after_take_iff hi).1 heq)
    exact nomatch hfailed.symm.trans hnext

/-- A limit of zero is refused, one of five is kept for both kinds of request, and one of seven does
not show. -/
theorem run_follows_environment_repaired :
    let limited := fun text => Step.set [("CALC_MAX_EXPRESSION_LENGTH", text)]
    let steps := [limited "0", .limit, limited "5", .settings, limited "7", .limit]
    let answers := (ofEnvironment .empty).run steps
    answers[1]? = some (.limit (.error
      (.invalid [⟨"calc_max_expression_length", none, .tooSmall⟩]))) ∧
    answers[5]? = some (.limit (.ok 5)) := by
  intro limited steps answers
  obtain ⟨-, hbuilt, -⟩ := @run_follows_environment .empty steps 1 .limit rfl trivial
  obtain ⟨hkept, -⟩ := @run_follows_environment .empty steps 5 .limit rfl trivial
  refine ⟨hbuilt ?_, hkept 3 _ ⟨by decide, ⟨_, rfl, trivial⟩, rfl, ?_, ?_⟩⟩
  · intro j settings h
    obtain rfl : j = 0 := Nat.lt_one_iff.1 h.before
    obtain ⟨s, hs, hasks⟩ := h.asks
    obtain rfl := Option.some.inj hs
    exact hasks
  · intro k hlt hgt
    obtain rfl : k = 4 := by omega
    nofun
  · intro k s hlt hs hasks
    obtain rfl | rfl | rfl : k = 0 ∨ k = 1 ∨ k = 2 := by omega
    · obtain rfl := Option.some.inj hs
      exact hasks.elim
    · exact .inl ⟨_, rfl⟩
    · obtain rfl := Option.some.inj hs
      exact hasks.elim

end Calculator.SettingsStore
