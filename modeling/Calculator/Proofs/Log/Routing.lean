/-
**Which records are written.**

A record is handed from its logger to the loggers above it, up to the first one that hands nothing
on, and every handler on the way writes it.  The threshold is found on the same way, but at the
first logger that has one.  Most loggers have no rule of their own, so that both depend on what
stands above the name of a logger: where the calculator's logger does, the threshold is the level
that was asked for, and everywhere else, also above a name that merely begins with the same letters,
it is the one of the root.  In either case exactly one handler is reached.

What stands above a name with a gap depends on the loggers that have been made, and a logger may
remember an answer from before one of them.  But neither depends on the level.  So a run of records
is heard in the same way at all levels, and the level decides for the governed records alone.

Main definitions:

* `Calculator.Log.Heard` — a record, and whether the calculator's logger governs it;
* `Calculator.Log.heard` — how records are heard one after another;
* `Calculator.Log.WasGoverned` — when that was found;
* `Calculator.Log.Level.reached` — those of them that reach the threshold;
* `Calculator.Log.Level.Admits` — a record reaches the threshold, by the name of its logger alone.

Main results:

* `Calculator.Log.Configuration.handlers_eq` — **every record reaches exactly one handler**;
* `Calculator.Log.Loggers.ask_map` — the level changes what is remembered, and not when;
* `Calculator.Log.Configuration.delivered_eq` — what is delivered follows from what is heard;
* `Calculator.Log.logged_admitted_once` — **the records that are admitted are written, each once**.
-/

import Calculator.Log.Process
import Calculator.Proofs.Log.Threshold

set_option relaxedAutoImplicit false
set_option autoImplicit false

namespace Calculator.Log

/-! ### Levels of any number -/

@[simp] theorem rankLabel_rank (level : Level) : rankLabel level.rank = level.label := by
  cases level <;> rfl

/-- The number of a level stands for the level. -/
theorem Record.line_numbered (record : Record) (id : Option RequestId) :
    record.numbered.line id = record.line id := by
  rw [NumberedRecord.line, numbered, rankLabel_rank, line]

/-- The stamp is found in the line, whatever the record carries and at whichever level. -/
theorem NumberedRecord.find?_requestId (record : NumberedRecord) (id : Option RequestId) :
    (record.line id).find? Record.stampName = some (.string (Record.stamp id)) := by
  change lastValue? Record.stampName (_ ++ record.extra.filter (Record.isWritten ·.1)) = _
  rw [lastValue?_append, Record.lastValue?_written]
  rfl

/-! ### Handlers -/

namespace Configuration

variable {level : String}

/-- Every configured logger has one handler and hands nothing on. -/
theorem own_of_mem {logger : String} {rule : LoggerRule}
    (mem : (logger, rule) ∈ (ofLevel level).loggers) :
    rule.handlers = ["default"] ∧ rule.propagate = some false := by
  simp only [ofLevel, List.mem_cons, List.not_mem_nil, or_false, Prod.mk.injEq] at mem
  rcases mem with ⟨-, rfl⟩ | ⟨-, rfl⟩ | ⟨-, rfl⟩ | ⟨-, rfl⟩ <;> exact ⟨rfl, rfl⟩

/-- **Every record reaches exactly one handler**, whatever its logger and whichever loggers have
been made. -/
theorem handlers_eq (made : List String) (logger : String) :
    (ofLevel level).handlers made logger = ["default"] := by
  have halong : ∀ path : List String, (ofLevel level).handlersAlong path = ["default"] := by
    intro path
    induction path with
    | nil => rfl
    | cons logger above ih =>
        unfold handlersAlong
        cases hrule : (ofLevel level).loggers.lookup logger with
        | none => exact ih
        | some rule =>
            obtain ⟨hhandlers, hpropagate⟩ := own_of_mem (mem_of_lookup hrule)
            dsimp only
            rw [hhandlers, hpropagate, if_pos rfl, List.append_nil]
  exact halong _

end Configuration

/-! ### Loggers that remember -/

namespace Loggers

variable {α β : Type}

/-- The same loggers with other answers, which depend on the level and on the answer. -/
def map (f : Int → α → β) (loggers : Loggers α) : Loggers β :=
  ⟨loggers.made, loggers.remembered.map fun (asked, found) => (asked, f asked.2 found)⟩

theorem lookup_map (f : Int → α → β) (remembered : List ((String × Int) × α))
    (asked : String × Int) :
    (remembered.map fun (asked, found) => (asked, f asked.2 found)).lookup asked =
      (remembered.lookup asked).map (f asked.2) := by
  induction remembered with
  | nil => rfl
  | cons entry remembered ih =>
      obtain ⟨key, found⟩ := entry
      rw [List.map_cons, List.lookup_cons, List.lookup_cons, ih]
      cases heq : asked == key with
      | false => rfl
      | true => rw [eq_of_beq heq]; rfl

/-- Where answers follow from other ones, so do the remembered ones: they are remembered at the same
time. -/
theorem ask_map {f : Int → α → β} {answer : List String → String → Int → α}
    {answer' : List String → String → Int → β}
    (h : ∀ made logger rank, answer' made logger rank = f rank (answer made logger rank))
    (loggers : Loggers α) (logger : String) (rank : Int) :
    (loggers.map f).ask answer' logger rank =
      (f rank (loggers.ask answer logger rank).1, (loggers.ask answer logger rank).2.map f) := by
  have hlookup := lookup_map f loggers.remembered (logger, rank)
  unfold ask
  dsimp only [map]
  rw [hlookup]
  cases loggers.remembered.lookup (logger, rank) with
  | none => simp [h]
  | some found => rfl

end Loggers

/-! ### What is heard -/

/-- A record with its id, and whether the calculator's logger governs it. -/
structure Heard where
  governed : Bool
  record : NumberedRecord
  id : Option RequestId

/-- The line that is written for it. -/
def Heard.line (heard : Heard) : Json := heard.record.line heard.id

/-- Whether a logger is governed, at whichever level it is asked. -/
def governs (made : List String) (logger : String) (_ : Int) : Bool := Governed made logger

/-- How records are heard one after another: a logger remembers for each level whether it was
governed. -/
def heard : Loggers Bool → List (NumberedRecord × Option RequestId) → List Heard
  | _, [] => []
  | loggers, (record, id) :: records =>
      let asked := loggers.ask governs record.logger record.rank
      ⟨asked.1, record, id⟩ :: heard asked.2 records

/-- Whether a level reaches the threshold of a logger that is governed or not. -/
def Level.reaches (requested : Level) (rank : Int) (governed : Bool) : Bool :=
  (requested.thresholdWhere governed).rank ≤ rank

/-- What is heard and reaches the threshold, in order. -/
def Level.reached (requested : Level) (entries : List Heard) : List Heard :=
  entries.filter fun entry => requested.reaches entry.record.rank entry.governed

/-- All records are heard, in order. -/
theorem map_heard (loggers : Loggers Bool) (records : List (NumberedRecord × Option RequestId)) :
    (heard loggers records).map (fun entry => (entry.record, entry.id)) = records := by
  induction records generalizing loggers with
  | nil => rfl
  | cons entry records ih => rw [heard, List.map_cons, ih]

/-- Whether the logger is governed was found on the way up at some time, when not all of these
loggers need have been made; the last one comes first. -/
def WasGoverned (made : List String) (logger : String) (governed : Bool) : Prop :=
  ∃ earlier, earlier <:+ made ∧ (governed = true ↔ Governed earlier logger)

theorem WasGoverned.mono {made more : List String} {logger : String} {governed : Bool}
    (h : WasGoverned made logger governed) (hmore : made <:+ more) :
    WasGoverned more logger governed := by
  obtain ⟨earlier, hearlier, hiff⟩ := h
  exact ⟨earlier, hearlier.trans hmore, hiff⟩

/-- All that is remembered was found on the way up. -/
def Loggers.Sound (loggers : Loggers Bool) : Prop :=
  ∀ entry ∈ loggers.remembered, WasGoverned loggers.made entry.1.1 entry.2

/-- An answer was found on the way up, now or when it was remembered. -/
theorem Loggers.Sound.ask {loggers : Loggers Bool} (h : loggers.Sound) (logger : String)
    (rank : Int) :
    WasGoverned (logger :: loggers.made) logger (loggers.ask governs logger rank).1 ∧
      (loggers.ask governs logger rank).2.made = logger :: loggers.made ∧
      (loggers.ask governs logger rank).2.Sound := by
  have hlater : ∀ entry ∈ loggers.remembered,
      WasGoverned (logger :: loggers.made) entry.1.1 entry.2 := fun entry mem =>
    (h entry mem).mono (List.suffix_cons _ _)
  unfold Loggers.ask
  cases hfound : loggers.remembered.lookup (logger, rank) with
  | none =>
      have hnow : WasGoverned (logger :: loggers.made) logger
          (governs (logger :: loggers.made) logger rank) :=
        ⟨_, List.suffix_refl _, decide_eq_true_iff⟩
      exact ⟨hnow, rfl, List.forall_mem_cons.2 ⟨hnow, hlater⟩⟩
  | some found =>
      obtain ⟨before, after, heq, -⟩ := List.lookup_eq_some_iff.1 hfound
      have hmem : ((logger, rank), found) ∈ loggers.remembered := by
        rw [heq]
        exact List.mem_append_right _ List.mem_cons_self
      exact ⟨hlater _ hmem, rfl, hlater⟩

/-- Whether a record is governed was found on the way up at some time of the run. -/
theorem wasGoverned_heard {loggers : Loggers Bool} (h : loggers.Sound)
    (records : List (NumberedRecord × Option RequestId)) :
    ∀ entry ∈ heard loggers records,
      WasGoverned ((records.map (·.1.logger)).reverse ++ loggers.made) entry.record.logger
        entry.governed := by
  -- the loggers are general, since each record may make one and let it remember an answer
  induction records generalizing loggers with
  | nil => nofun
  | cons first records ih =>
      obtain ⟨record, id⟩ := first
      obtain ⟨hasked, hmade, hafter⟩ := h.ask record.logger record.rank
      have hlast := ih hafter
      rw [hmade, List.append_cons, ← List.reverse_cons] at hlast
      refine List.forall_mem_cons.2 ⟨hasked.mono ?_, hlast⟩
      rw [List.map_cons, List.reverse_cons, List.append_assoc]
      exact List.suffix_append _ _

/-! ### What is written -/

section

variable {level : String} {requested : Level}

/-- A level is enabled if it reaches the threshold; no level but a positive one does. -/
theorem Configuration.enabled_eq (h : Level.ofName? (upper level) = some requested)
    (made : List String) (logger : String) (rank : Int) :
    (ofLevel level).enabled made logger rank =
      requested.reaches rank (governs made logger rank) := by
  have hpos : ∀ governed, 0 < (requested.thresholdWhere governed).rank := by
    intro governed
    cases requested <;> cases governed <;> decide
  rw [enabled, threshold_eq h, ← governs.eq_def made logger rank, Level.reaches,
    ← Bool.decide_and]
  refine decide_eq_decide.2 (and_iff_right_of_imp fun hle => ?_)
  exact Int.lt_of_lt_of_le (Int.ofNat_lt.2 (hpos _)) hle

/-- What is delivered are the lines of what is heard and reaches the threshold, each through one
handler. -/
theorem Configuration.delivered_eq (h : Level.ofName? (upper level) = some requested)
    (loggers : Loggers Bool) (records : List (NumberedRecord × Option RequestId)) :
    (ofLevel level).delivered (loggers.map requested.reaches) records =
      (requested.reached (heard loggers records)).map fun entry => ("default", entry.line) := by
  induction records generalizing loggers with
  | nil => rfl
  | cons first records ih =>
      obtain ⟨record, id⟩ := first
      rw [delivered, Loggers.ask_map (enabled_eq h), heard]
      dsimp only
      rw [ih, handlers_eq, Level.reached, Level.reached, List.filter_cons]
      dsimp only
      split <;> rfl

/-- At a known level the lines of what is heard and reaches the threshold are written. -/
theorem logged_eq (h : Level.ofName? (upper level) = some requested) (made : List String)
    (records : List (NumberedRecord × Option RequestId)) :
    logged level made records =
      .ok ((requested.reached (heard ⟨made, []⟩ records)).map
        fun entry => ("default", entry.line)) := by
  rw [logged, Configuration.unknownLevel?_of_ofName? h]
  exact congrArg Except.ok (Configuration.delivered_eq h ⟨made, []⟩ records)

end

/-! ### Names without gaps -/

/-- The threshold of a logger by its name, where a level is asked for. -/
def Level.thresholdOf (requested : Level) (logger : String) : Level :=
  if Below applicationLogger logger then requested.effective else .info

/-- Where a level is asked for, the record reaches the threshold of its logger. -/
def Level.Admits (requested : Level) (record : NumberedRecord) : Prop :=
  (requested.thresholdOf record.logger).rank ≤ record.rank

instance (requested : Level) (record : NumberedRecord) : Decidable (requested.Admits record) :=
  inferInstanceAs (Decidable (_ ≤ _))

/-- The records that are admitted, in order. -/
def Level.admitted (requested : Level) (records : List (NumberedRecord × Option RequestId)) :
    List (NumberedRecord × Option RequestId) :=
  records.filter (requested.Admits ·.1)

/-- A logger has the threshold of its name, if it is governed exactly if it is below the
calculator's. -/
theorem Level.thresholdWhere_eq (requested : Level) {governed : Bool} {logger : String}
    (h : governed = true ↔ Below applicationLogger logger) :
    requested.thresholdWhere governed = requested.thresholdOf logger := by
  unfold thresholdWhere thresholdOf
  exact if_congr h rfl rfl

/-- Records of loggers whose names have no gap reach the threshold if they are admitted. -/
theorem Level.map_reached (requested : Level) (entries : List Heard)
    (h : ∀ entry ∈ entries,
      entry.governed = true ↔ Below applicationLogger entry.record.logger) :
    (requested.reached entries).map (fun entry => (entry.record, entry.id)) =
      requested.admitted (entries.map fun entry => (entry.record, entry.id)) := by
  rw [reached, admitted, List.filter_map]
  congr 1
  refine List.filter_congr fun entry mem => ?_
  rw [reaches, requested.thresholdWhere_eq (h entry mem)]
  rfl

/-- The lines of records at named levels are those of the records that are admitted, if the names of
their loggers have no gap. -/
theorem Routing.write_eq_admitted {level : String} {requested : Level}
    (h : Level.ofName? (upper level) = some requested) (records : List (Record × Option RequestId))
    (hgap : ∀ entry ∈ records, ¬ HasGap entry.1.logger) :
    Routing.write ⟨(Configuration.ofLevel level).threshold []⟩ records =
      (requested.admitted (records.map fun (record, id) => (record.numbered, id))).map
        fun (record, id) => record.line id := by
  have henabled : ∀ entry ∈ records,
      Routing.Enabled ⟨(Configuration.ofLevel level).threshold []⟩ entry.1 ↔
        requested.Admits entry.1.numbered := by
    intro entry mem
    have hthreshold : (Configuration.ofLevel level).threshold [] entry.1.logger =
        requested.thresholdOf entry.1.logger :=
      (Configuration.threshold_eq h [] entry.1.logger).trans
        (requested.thresholdWhere_eq (decide_eq_true_iff.trans
          (governed_iff_below (hgap entry mem) [])))
    rw [Level.Admits]
    change ((Configuration.ofLevel level).threshold [] entry.1.logger).rank ≤ _ ↔ _
    rw [hthreshold]
    exact Int.ofNat_le.symm
  rw [Routing.write, Level.admitted, List.filter_map, List.map_map,
    List.filter_congr fun entry mem => decide_eq_decide.2 (henabled entry mem)]
  exact List.map_congr_left fun entry _ => (entry.1.line_numbered entry.2).symm

/-! ### Other levels -/

/-- What is heard and not governed reaches the threshold at every level or at none. -/
theorem Level.reached_others (requested other : Level) (entries : List Heard) :
    (requested.reached entries).filter (fun entry => ¬ entry.governed) =
      (other.reached entries).filter (fun entry => ¬ entry.governed) := by
  rw [reached, reached, List.filter_filter, List.filter_filter]
  refine List.filter_congr fun entry _ => ?_
  cases hgoverned : entry.governed with
  | false => rfl
  | true => rfl

/-- A higher threshold only leaves records out. -/
theorem Level.reached_sublist {lower higher : Level}
    (h : lower.effective.rank ≤ higher.effective.rank) (entries : List Heard) :
    (higher.reached entries).Sublist (lower.reached entries) := by
  refine List.monotone_filter_right entries fun entry hreaches => ?_
  revert hreaches
  unfold reaches thresholdWhere
  cases entry.governed with
  | false => exact id
  | true =>
      intro hreaches
      exact decide_eq_true (Int.le_trans (Int.ofNat_le.2 h) (of_decide_eq_true hreaches))

/-! ### Records one after another -/

/-- **The records that are admitted are written, each once**, in order and with the id under which
it was said.  Whichever loggers have been made before, there is one way to hear the records at all
levels.  What is governed was found to be on the way up to the calculator's logger, and this is what
is below that logger, but for names with a gap.  At a known level that is written which reaches the
level asked for, if it is governed, and the fixed threshold elsewhere; so the level never matters
for what is not governed, and a higher one only leaves records out.  Without gaps the name alone
decides, and the records at named levels are routed alike.  An unknown level is refused. -/
theorem logged_admitted_once (made : List String)
    (records : List (NumberedRecord × Option RequestId)) :
    ∃ entries : List Heard,
      entries.map (fun entry => (entry.record, entry.id)) = records ∧
      (∀ entry ∈ entries,
        WasGoverned ((records.map (·.1.logger)).reverse ++ made) entry.record.logger
          entry.governed ∧
        (entry.governed = true → Below applicationLogger entry.record.logger) ∧
        (¬ HasGap entry.record.logger →
          (entry.governed = true ↔ Below applicationLogger entry.record.logger)) ∧
        entry.line.find? "request_id" =
          some (.string ((entry.id.map RequestId.text).getD "-"))) ∧
      ∀ level,
        (Level.ofName? (upper level) = none →
          logged level made records = .error ⟨applicationLogger⟩) ∧
        ∀ requested, Level.ofName? (upper level) = some requested →
          logged level made records =
            .ok ((requested.reached entries).map fun entry => ("default", entry.line)) ∧
          ((∀ entry ∈ records, ¬ HasGap entry.1.logger) →
            logged level made records = .ok ((requested.admitted records).map
              fun (record, id) => ("default", record.line id)) ∧
            ∀ named : List (Record × Option RequestId),
              records = named.map (fun (record, id) => (record.numbered, id)) →
                (Routing.ofLevel level).map (·.write named) =
                  .ok ((requested.admitted records).map fun (record, id) => record.line id)) ∧
          ∀ other : Level,
            (requested.reached entries).filter (fun entry => ¬ entry.governed) =
                (other.reached entries).filter (fun entry => ¬ entry.governed) ∧
              (requested.effective.rank ≤ other.effective.rank →
                (other.reached entries).Sublist (requested.reached entries)) := by
  have hnone : Loggers.Sound ⟨made, []⟩ := nofun
  have hwas := wasGoverned_heard hnone records
  have hmap := map_heard ⟨made, []⟩ records
  have hlaw : ∀ entry ∈ heard ⟨made, []⟩ records, ¬ HasGap entry.record.logger →
      (entry.governed = true ↔ Below applicationLogger entry.record.logger) := by
    intro entry mem hgap
    obtain ⟨earlier, -, hiff⟩ := hwas entry mem
    exact hiff.trans (governed_iff_below hgap earlier)
  refine ⟨heard ⟨made, []⟩ records, hmap, ?_, ?_⟩
  · intro entry mem
    refine ⟨hwas entry mem, fun hgoverned => ?_, hlaw entry mem,
      entry.record.find?_requestId entry.id⟩
    obtain ⟨earlier, -, hiff⟩ := hwas entry mem
    exact (hiff.1 hgoverned).below
  · intro level
    constructor
    · intro hunknown
      rw [logged, Configuration.unknownLevel?_of_unknown hunknown]
    · intro requested hlevel
      refine ⟨logged_eq hlevel made records, ?_, ?_⟩
      · intro hgaps
        have hplain : ∀ entry ∈ heard ⟨made, []⟩ records, ¬ HasGap entry.record.logger :=
          fun entry mem => hgaps (entry.record, entry.id) (hmap ▸ List.mem_map_of_mem mem)
        have hreached := requested.map_reached _ fun entry mem => hlaw entry mem (hplain entry mem)
        rw [hmap] at hreached
        refine ⟨?_, ?_⟩
        · rw [logged_eq hlevel, ← hreached, List.map_map]
          rfl
        · rintro named rfl
          rw [Routing.ofLevel_of_ofName? hlevel]
          exact congrArg Except.ok (Routing.write_eq_admitted hlevel named fun entry mem =>
            hgaps _ (List.mem_map_of_mem mem))
      · intro other
        exact ⟨requested.reached_others other _, fun hle => Level.reached_sublist hle _⟩

/-- At the lowest level, which stands for the fixed threshold, a record for debugging is written for
no logger, but one of a level without a name above it is; a level of no name writes nothing at
all. -/
theorem logged_admitted_once_notset :
    let early : NumberedRecord × Option RequestId := (⟨10, "calc_app.calculator", "tried", []⟩,
      none)
    let first : NumberedRecord × Option RequestId := (⟨25, "calc_app.request", "asked", []⟩,
      some (.generated 0))
    let second : NumberedRecord × Option RequestId := (⟨30, "calc_apple", "grown", []⟩, none)
    let records := [early, first, second]
    Level.ofName? (upper "NotSet") = some .notset ∧ Level.ofName? (upper "loud") = none ∧
      (∀ entry ∈ records, ¬ HasGap entry.1.logger) ∧
      logged "NotSet" ["calc_app."] records =
        .ok [("default", first.1.line first.2), ("default", second.1.line second.2)] ∧
      logged "loud" ["calc_app."] records = .error ⟨applicationLogger⟩ := by
  intro early first second records
  have hlowest : Level.ofName? (upper "NotSet") = some .notset := by decide
  have hunknown : Level.ofName? (upper "loud") = none := by decide
  have hgaps : ∀ entry ∈ records, ¬ HasGap entry.1.logger := by
    simp only [records, List.forall_mem_cons]
    exact ⟨by decide, by decide, by decide, nofun⟩
  obtain ⟨entries, -, -, hlevels⟩ := logged_admitted_once ["calc_app."] records
  obtain ⟨-, hplain, -⟩ := (hlevels "NotSet").2 .notset hlowest
  have hwritten := (hplain hgaps).1
  have hadmitted : Level.notset.admitted records = [first, second] := by
    have hearly : ¬ Level.notset.Admits early.1 := by decide
    have hfirst : Level.notset.Admits first.1 := by decide
    have hsecond : Level.notset.Admits second.1 := by decide
    simp [Level.admitted, records, hearly, hfirst, hsecond]
  rw [hadmitted] at hwritten
  exact ⟨hlowest, hunknown, hgaps, hwritten, (hlevels "loud").1 hunknown⟩

/-- Below the calculator's logger a name with a gap is not governed, and a warning is written
although only errors are asked for; it is governed once a logger has been made that ends at the
gap. -/
theorem logged_of_gap :
    let record : NumberedRecord := ⟨30, "calc_app..x", "m", []⟩
    Level.ofName? (upper "ERROR") = some .error ∧ Below applicationLogger record.logger ∧
      ¬ Level.error.Admits record ∧
      logged "ERROR" [] [(record, none)] = .ok [("default", record.line none)] ∧
      logged "ERROR" ["calc_app."] [(record, none)] = .ok [] := by
  refine ⟨by decide, by decide, by decide, rfl, rfl⟩

end Calculator.Log
