/-
**The threshold of the calculator.**

A level that is asked for is known if its name is, in any case.  It becomes the threshold of the
calculator's logger and of every logger from which the way up passes it, since nothing is configured
for these.  The lowest level is no threshold and leaves the one of the root.  All other loggers have
a threshold that does not depend on the level.

Whether the way up passes the calculator's logger can be read off a name, unless the name has two
dots behind that of the calculator's logger.

Main definitions:

* `Calculator.Log.Level.effective` — the threshold that a requested level stands for;
* `Calculator.Log.Below` — a dotted path is another one or leads down from it;
* `Calculator.Log.HasGap` — two dots follow the name of the calculator's logger;
* `Calculator.Log.OfCalculator` — the loggers below the calculator's but for those;
* `Calculator.Log.Governed` — the way up passes the calculator's logger.

Main results:

* `Calculator.Log.mem_of_mem_lineage` — what stands above a name;
* `Calculator.Log.governed_iff_below` — **which loggers are below the calculator's**;
* `Calculator.Log.Configuration.threshold_eq` — **the threshold of every logger**;
* `Calculator.Log.Routing.ofLevel_of_ofName?` — every known level has a routing.
-/

import Calculator.Log.Configuration
import Mathlib.Data.List.Basic

set_option relaxedAutoImplicit false
set_option autoImplicit false

namespace Calculator.Log

/-- The threshold that a requested level stands for: the lowest one stands for that of the root. -/
def Level.effective (level : Level) : Level := if level = .notset then .info else level

/-! ### Dotted paths -/

/-- The path is the other one, or further parts follow it behind a dot. -/
def Below (above path : String) : Prop := path = above ∨ above.toList ++ ['.'] <+: path.toList

instance (above path : String) : Decidable (Below above path) :=
  inferInstanceAs (Decidable (_ ∨ _))

/-- Of two paths above a third one, the one without dots is above the other. -/
theorem Below.of_below {above other path : String} (hdot : '.' ∉ above.toList)
    (h : Below above path) (h' : Below other path) : Below above other := by
  have hnot : ¬ other.toList ++ ['.'] <+: above.toList := fun hother =>
    hdot (hother.subset (by simp))
  rcases h with rfl | h
  · exact h'.elim (fun heq => .inl heq.symm) fun h' => absurd h' hnot
  · rcases h' with rfl | h'
    · exact .inr h
    · rcases List.prefix_or_prefix_of_prefix h h' with hle | hle
      · rcases List.prefix_concat_iff.1 hle with heq | hlt
        · exact .inl (String.toList_inj.1 (List.append_cancel_right heq).symm)
        · exact .inr hlt
      · rcases List.prefix_concat_iff.1 hle with heq | hlt
        · exact .inl (String.toList_inj.1 (List.append_cancel_right heq))
        · exact absurd hlt hnot

/-! ### The way up -/

/-- What stands above a name has been made, and the name continues it behind a dot. -/
theorem mem_of_mem_lineage {made : List String} {path : List Char} {above : String}
    (h : above ∈ lineage made path) : above ∈ made ∧ above.toList ++ ['.'] <+: path.reverse := by
  fun_induction lineage made path with
  | case1 last rest candidate hmade ih =>
      rw [List.reverse_cons]
      rcases List.mem_cons.1 h with rfl | h
      · rw [String.toList_ofList]
        exact ⟨hmade, List.prefix_rfl⟩
      · exact ⟨(ih h).1, (ih h).2.trans (List.prefix_append _ _)⟩
  | case2 last rest candidate hmade ih =>
      rw [List.reverse_cons, List.reverse_cons, List.append_assoc]
      exact ⟨(ih h).1, (ih h).2.trans (List.prefix_append _ _)⟩
  | case3 c rest _ ih =>
      rw [List.reverse_cons]
      exact ⟨(ih h).1, (ih h).2.trans (List.prefix_append _ _)⟩
  | case4 => cases h

/-- A character that is no dot is passed over. -/
theorem lineage_cons_of_ne {c : Char} (h : c ≠ '.') (made : List String) (rest : List Char) :
    lineage made (c :: rest) = lineage made rest := by
  rw [lineage]
  exact fun last rest' heq _ => h heq

/-- The calculator's logger stands above every name behind it that does not begin with a dot; the
name is given from its end. -/
theorem application_mem_lineage {made : List String} (hmade : applicationLogger ∈ made) :
    ∀ name : List Char, name.getLast? ≠ some '.' →
      applicationLogger ∈ lineage made (name ++ '.' :: applicationLogger.toList.reverse)
  | [], _ => by
      have hself : lineage made ('.' :: applicationLogger.toList.reverse) =
          applicationLogger :: lineage made applicationLogger.toList.reverse := if_pos hmade
      rw [List.nil_append, hself]
      exact List.mem_cons_self
  | [c], h => by
      have hc : c ≠ '.' := fun heq => h (congrArg some heq)
      rw [List.cons_append, lineage_cons_of_ne hc]
      exact application_mem_lineage hmade [] (by simp)
  | c :: d :: name, h => by
      have hnext : (d :: name).getLast? ≠ some '.' := by rwa [List.getLast?_cons_cons] at h
      by_cases hc : c = '.'
      · subst hc
        -- either a logger is found here, or the way goes on behind the next character
        simp only [List.cons_append, lineage]
        split
        · exact List.mem_cons_of_mem _ (application_mem_lineage hmade (d :: name) hnext)
        · refine application_mem_lineage hmade name fun hlast => hnext ?_
          rw [List.getLast?_cons, hlast]
          rfl
      · rw [List.cons_append, lineage_cons_of_ne hc]
        exact application_mem_lineage hmade (d :: name) hnext

/-- Two dots follow the name of the calculator's logger. -/
def HasGap (logger : String) : Prop := applicationLogger.toList ++ ['.', '.'] <+: logger.toList

instance (logger : String) : Decidable (HasGap logger) := inferInstanceAs (Decidable (_ <+: _))

/-- The logger is below the calculator's, and its name has no gap. -/
def OfCalculator (logger : String) : Prop := Below applicationLogger logger ∧ ¬ HasGap logger

instance (logger : String) : Decidable (OfCalculator logger) :=
  inferInstanceAs (Decidable (_ ∧ _))

/-- The way up from a logger passes the calculator's, where loggers have been made besides those
that are configured at every level. -/
def Governed (made : List String) (logger : String) : Prop :=
  applicationLogger ∈ (Configuration.ofLevel "").ancestors made logger

instance (made : List String) (logger : String) : Decidable (Governed made logger) :=
  inferInstanceAs (Decidable (_ ∈ _))

/-- What stands on the way up is above the logger. -/
theorem below_of_mem_ancestors {configuration : Configuration} {made : List String}
    {above logger : String} (h : above ∈ configuration.ancestors made logger) :
    Below above logger := by
  rcases List.mem_cons.1 h with rfl | h
  · exact .inl rfl
  · have hprefix := (mem_of_mem_lineage h).2
    rw [List.reverse_reverse] at hprefix
    exact .inr hprefix

theorem Governed.below {made : List String} {logger : String} (h : Governed made logger) :
    Below applicationLogger logger := below_of_mem_ancestors h

/-- **Which loggers are below the calculator's** follows from their names, unless these have a gap:
then it depends on the loggers that have been made. -/
theorem governed_iff_below {logger : String} (h : ¬ HasGap logger) (made : List String) :
    Governed made logger ↔ Below applicationLogger logger := by
  refine ⟨Governed.below, ?_⟩
  rintro (rfl | ⟨name, hname⟩)
  · exact List.mem_cons_self
  · refine List.mem_cons_of_mem _ ?_
    rw [← hname, List.reverse_append, List.reverse_append]
    refine application_mem_lineage (by simp [Configuration.ofLevel]) name.reverse fun hlast => ?_
    -- the name behind the dot would begin with another one
    rw [List.getLast?_reverse] at hlast
    obtain ⟨rest, rfl⟩ := List.head?_eq_some_iff.1 hlast
    exact h ⟨rest, by rw [← hname]; simp⟩

/-! ### Thresholds -/

namespace Configuration

variable {level logger : String}

/-- A rule that is found is one of those that are configured. -/
theorem mem_of_lookup {rule : LoggerRule} (h : (ofLevel level).loggers.lookup logger = some rule) :
    (logger, rule) ∈ (ofLevel level).loggers := by
  obtain ⟨before, after, heq, -⟩ := List.lookup_eq_some_iff.1 h
  rw [heq]
  exact List.mem_append_right _ List.mem_cons_self

/-- The calculator's logger alone has a level that can be chosen. -/
theorem level_of_mem {rule : LoggerRule} (mem : (logger, rule) ∈ (ofLevel level).loggers)
    (h : logger ≠ applicationLogger) :
    rule.level = "INFO" ∧ ¬ Below applicationLogger logger := by
  simp only [ofLevel, List.mem_cons, List.not_mem_nil, or_false, Prod.mk.injEq] at mem
  rcases mem with ⟨rfl, rfl⟩ | ⟨rfl, rfl⟩ | ⟨rfl, rfl⟩ | ⟨rfl, -⟩
  · exact ⟨rfl, by decide⟩
  · exact ⟨rfl, by decide⟩
  · exact ⟨rfl, by decide⟩
  · exact absurd rfl h

/-- Another logger has no threshold of its own, or the fixed one if it is not below the
calculator's. -/
theorem ownThreshold?_of_ne {threshold : Level} (h : logger ≠ applicationLogger)
    (hown : (ofLevel level).ownThreshold? logger = some threshold) :
    threshold = .info ∧ ¬ Below applicationLogger logger := by
  rw [ownThreshold?, Option.filter_eq_some_iff, levelOf?, Option.bind_eq_some_iff] at hown
  obtain ⟨⟨rule, hrule, hlevel⟩, -⟩ := hown
  obtain ⟨hfixed, hbelow⟩ := level_of_mem (mem_of_lookup hrule) h
  rw [hfixed] at hlevel
  exact ⟨(Option.some.inj hlevel).symm, hbelow⟩

/-- The calculator's logger has the level that was asked for, if it is a threshold. -/
theorem ownThreshold?_application {requested : Level}
    (h : Level.ofName? (upper level) = some requested) :
    (ofLevel level).ownThreshold? applicationLogger = (some requested).filter (· ≠ .notset) := by
  rw [← h]
  rfl

end Configuration

/-- The threshold of a logger that is governed by the calculator's or not, where a level is asked
for. -/
def Level.thresholdWhere (requested : Level) (governed : Bool) : Level :=
  if governed then requested.effective else .info

/-- **The threshold of every logger** is the level that was asked for, if the way up passes the
calculator's logger, and the fixed one otherwise. -/
theorem Configuration.threshold_eq {level : String} {requested : Level}
    (h : Level.ofName? (upper level) = some requested) (made : List String) (logger : String) :
    (ofLevel level).threshold made logger =
      requested.thresholdWhere (Governed made logger) := by
  have hroot : (Level.ofName? (ofLevel level).root.level).getD .notset = .info := rfl
  rw [threshold, hroot]
  cases hfound : ((ofLevel level).ancestors made logger).findSome?
      (ofLevel level).ownThreshold? with
  | none =>
      -- no logger on the way has a threshold, so that the calculator's can only be the lowest one
      by_cases hgoverned : Governed made logger
      · have hown := List.findSome?_eq_none_iff.1 hfound applicationLogger hgoverned
        rw [ownThreshold?_application h, Option.filter_eq_none_iff] at hown
        have hlowest : requested = .notset := by simpa using hown requested rfl
        rw [hlowest]
        simp [Level.thresholdWhere, Level.effective]
      · simp [Level.thresholdWhere, hgoverned]
  | some found =>
      obtain ⟨above, mem, hown⟩ := List.exists_of_findSome?_eq_some hfound
      by_cases happ : above = applicationLogger
      · subst happ
        have hgoverned : Governed made logger := mem
        rw [ownThreshold?_application h, Option.filter_eq_some_iff] at hown
        obtain ⟨heq, hne⟩ := hown
        cases heq
        have hne' : requested ≠ .notset := of_decide_eq_true hne
        simp [Level.thresholdWhere, Level.effective, hgoverned, hne']
      · obtain ⟨rfl, hbelow⟩ := ownThreshold?_of_ne happ hown
        -- a logger with the fixed threshold and the calculator's do not stand above one name
        have hgoverned : ¬ Governed made logger := fun hgoverned =>
          hbelow (hgoverned.below.of_below (by decide) (below_of_mem_ancestors mem))
        simp [Level.thresholdWhere, hgoverned]

/-- The threshold of a logger of the calculator is the level that was asked for. -/
theorem Configuration.threshold_of_calculator {level : String} {requested : Level}
    (h : Level.ofName? (upper level) = some requested) {logger : String}
    (hlogger : OfCalculator logger) (made : List String) :
    (ofLevel level).threshold made logger = requested.effective := by
  rw [threshold_eq h, Level.thresholdWhere]
  exact if_pos (decide_eq_true ((governed_iff_below hlogger.2 made).2 hlogger.1))

/-- At every known level all configured levels are known. -/
theorem Configuration.unknownLevel?_of_ofName? {level : String} {requested : Level}
    (h : Level.ofName? (upper level) = some requested) :
    (Configuration.ofLevel level).unknownLevel? = none := by
  have hinfo : Level.ofName? "INFO" = some .info := rfl
  rw [Configuration.unknownLevel?, Option.map_eq_none_iff, List.find?_eq_none]
  intro entry mem
  -- what is fixed is known, and so is what was asked for
  have hlevel : entry.2.level = "INFO" ∨ entry.2.level = upper level := by
    simp only [Configuration.ofLevel, List.mem_cons, List.not_mem_nil, or_false] at mem
    rcases mem with rfl | rfl | rfl | rfl
    · exact .inl rfl
    · exact .inl rfl
    · exact .inl rfl
    · exact .inr rfl
  change ¬ (Level.ofName? entry.2.level).isNone = true
  rcases hlevel with hfixed | hasked
  · rw [hfixed, hinfo]
    nofun
  · rw [hasked, h]
    nofun

/-- An unknown level is refused for the calculator's logger. -/
theorem Configuration.unknownLevel?_of_unknown {level : String}
    (h : Level.ofName? (upper level) = none) :
    (Configuration.ofLevel level).unknownLevel? = some applicationLogger := by
  have hinfo : Level.ofName? "INFO" = some .info := rfl
  simp only [Configuration.unknownLevel?, Configuration.ofLevel, LoggerRule.own,
    List.find?_cons, hinfo, h, Option.isNone_some, Option.isNone_none, Option.map_some]

/-- Every known level has a routing. -/
theorem Routing.ofLevel_of_ofName? {level : String} {requested : Level}
    (h : Level.ofName? (upper level) = some requested) :
    Routing.ofLevel level = .ok ⟨(Configuration.ofLevel level).threshold []⟩ := by
  rw [Routing.ofLevel, Configuration.unknownLevel?_of_ofName? h]

end Calculator.Log
