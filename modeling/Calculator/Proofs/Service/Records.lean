/-
**What the service leaves in the log.**

Every failure is recorded once, and nothing but failures is.  A request that is refused for its
length leaves nothing, and neither does one that succeeds or a preview that is not calculated.  A
calculation that fails leaves a record for debugging with the expression as it was given and the
fault in it, and an evaluation that was asked for leaves one more, at the level of information.
The records of a run are those of its requests in order, of which the ones that reach the threshold
of the calculator are written.

Main definitions:

* `Calculator.Service.TellsFault`, `Calculator.Service.TellsError` — the two records of a failure;
* `Calculator.Service.Leaves` — what a request leaves, by how it is answered;
* `Calculator.Service.Recorded` — what a run leaves.

Main results:

* `Calculator.Service.leaves_answer`, `Calculator.Service.recorded_run` — the records of one request
  and of a run;
* `Calculator.Service.Recorded.countP_eq` — there are as many records of errors as evaluations that
  failed;
* `Calculator.Service.run_records_failures` — **every failure is recorded, and only failures are**.
-/

import Calculator.Proofs.Log.Threshold
import Calculator.Proofs.Service.Agreement

set_option relaxedAutoImplicit false
set_option autoImplicit false

namespace Calculator.Service

open Log
open Expression (Fault prepared)

/-! ### The records of a failure -/

/-- The record tells for debugging that the expression cannot be calculated: it holds the expression
as it was given, and what is wrong with the expression as it is read. -/
structure TellsFault (expression : String) (record : Record) : Prop where
  level : record.level = .debug
  logger : record.logger = "calc_app.calculator.engine"
  message : record.message = "calculator.evaluation_failed"
  cause : ∃ fault trace,
    Calculator.evaluate (String.ofList (prepared expression.toList)) = .error fault ∧
      record.extra = [("expression", .string expression), ("exc_info", .string trace)] ∧
      (fault.cause ≠ .depth →
        trace = "calc_app.services.calculator_engine.ExpressionSyntaxError: " ++ fault.message)

/-- The record tells that the evaluation of the expression has failed; it holds the number of
characters that were given. -/
structure TellsError (expression : String) (record : Record) : Prop where
  level : record.level = .info
  logger : record.logger = "calc_app.calculator"
  message : record.message = "calculator.error"
  extra : record.extra = [("expression_length", .ofNat expression.length)]

theorem tellsFault_evaluationFailed {expression : String} {fault : Fault}
    (h : outcome expression = .error fault) :
    TellsFault expression (evaluationFailed expression fault) := by
  refine ⟨rfl, rfl, rfl, fault, fault.trace, (outcome_eq_error_iff.1 h).2, rfl, ?_⟩
  intro hsyntax
  unfold Fault.trace
  split
  · contradiction
  · rfl

/-- Both records are of loggers of the calculator. -/
theorem TellsFault.ofCalculator {expression : String} {record : Record}
    (h : TellsFault expression record) : OfCalculator record.logger := by
  rw [h.logger]
  decide

theorem TellsError.ofCalculator {expression : String} {record : Record}
    (h : TellsError expression record) : OfCalculator record.logger := by
  rw [h.logger]
  decide

theorem tellsError_evaluationError (expression : String) :
    TellsError expression (evaluationError expression) := ⟨rfl, rfl, rfl, rfl⟩

/-! ### One request -/

/-- What a request leaves in the log, by how it is answered. -/
inductive Leaves (service : Service) : Request → Except Refusal Answer → List Record → Prop where
  | evaluation_refused {expression : String} (long : service.Overlong expression) :
      Leaves service (.evaluate expression) (.error (service.overlong expression)) []
  | preview_refused {expression : String} (long : service.Overlong expression) :
      Leaves service (.preview expression) (.error (service.overlong expression)) []
  | evaluated {expression : String} {evaluation : Evaluation}
      (short : ¬ service.Overlong expression) (success : calculate expression ≠ errorDisplay)
      (isError : evaluation.isError = false) :
      Leaves service (.evaluate expression) (.ok (.evaluation evaluation)) []
  | evaluation_failed {expression : String} {evaluation : Evaluation} {first second : Record}
      (short : ¬ service.Overlong expression) (failure : calculate expression = errorDisplay)
      (isError : evaluation.isError = true) (fault : TellsFault expression first)
      (error : TellsError expression second) :
      Leaves service (.evaluate expression) (.ok (.evaluation evaluation)) [first, second]
  | hidden {expression : String} (short : ¬ service.Overlong expression)
      (hidden : ¬ HasPreview expression) :
      Leaves service (.preview expression) (.ok (.preview ⟨expression, ""⟩)) []
  | previewed {expression : String} (short : ¬ service.Overlong expression)
      (calculated : HasPreview expression) (success : calculate expression ≠ errorDisplay) :
      Leaves service (.preview expression) (.ok (.preview ⟨expression, calculate expression⟩)) []
  | preview_failed {expression : String} {record : Record}
      (short : ¬ service.Overlong expression) (calculated : HasPreview expression)
      (failure : calculate expression = errorDisplay) (fault : TellsFault expression record) :
      Leaves service (.preview expression) (.ok (.preview ⟨expression, ""⟩)) [record]

variable (service : Service)

theorem leaves_evaluate (expression : String) :
    Leaves service (.evaluate expression) (service.answer (.evaluate expression)).1
      (service.answer (.evaluate expression)).2 := by
  by_cases h : service.Overlong expression
  · rw [answer, evaluate_of_overlong h]
    exact .evaluation_refused h
  · obtain ⟨formatted, -, heq⟩ := exists_evaluate_eq h
    rw [answer, heq]
    cases hresult : outcome expression with
    | error fault =>
        have herror := calculate_of_error hresult
        simp only [calculationRecords, hresult, beq_iff_eq.2 herror]
        exact .evaluation_failed h herror rfl (tellsFault_evaluationFailed hresult)
          (tellsError_evaluationError expression)
    | ok display =>
        have hok := calculate_ne_errorDisplay hresult
        simp only [calculationRecords, hresult, beq_eq_false_iff_ne.2 hok]
        exact .evaluated h hok rfl

theorem leaves_preview (expression : String) :
    Leaves service (.preview expression) (service.answer (.preview expression)).1
      (service.answer (.preview expression)).2 := by
  by_cases h : service.Overlong expression
  · rw [answer, preview_of_overlong h]
    exact .preview_refused h
  · rw [answer, preview, if_neg h]
    by_cases hpreview : HasPreview expression
    · cases hresult : outcome expression with
      | error fault =>
          have herror := calculate_of_error hresult
          simp only [calculationRecords, hresult, if_pos hpreview, preview_of_errorDisplay herror]
          exact .preview_failed h hpreview herror (tellsFault_evaluationFailed hresult)
      | ok display =>
          have hok := calculate_ne_errorDisplay hresult
          simp only [calculationRecords, hresult, if_pos hpreview, Calculator.preview, if_neg hok]
          exact .previewed h hpreview hok
    · simp only [if_neg hpreview, Calculator.preview]
      exact .hidden h hpreview

/-- What a request leaves follows from how it is answered. -/
theorem leaves_answer (request : Request) :
    Leaves service request (service.answer request).1 (service.answer request).2 := by
  cases request with
  | evaluate expression => exact service.leaves_evaluate expression
  | preview expression => exact service.leaves_preview expression

/-! ### Runs -/

/-- What a run leaves in the log: what its requests leave, in order. -/
inductive Recorded : List Request → List (Except Refusal Answer) → List Record → Prop where
  | nil : Recorded [] [] []
  | cons {request : Request} {answer : Except Refusal Answer} {block : List Record}
      {requests : List Request} {answers : List (Except Refusal Answer)} {records : List Record}
      (first : Leaves service request answer block) (rest : Recorded requests answers records) :
      Recorded (request :: requests) (answer :: answers) (block ++ records)

/-- A run leaves what its requests leave. -/
theorem recorded_run (requests : List Request) :
    Recorded service requests (service.run requests).1 (service.run requests).2 := by
  induction requests with
  | nil => exact .nil
  | cons request requests ih => exact .cons (service.leaves_answer request) ih

/-- The request was an evaluation, and it has failed. -/
def isFailedEvaluation : Except Refusal Answer → Bool
  | .ok (.evaluation evaluation) => evaluation.isError
  | _ => false

/-- The record is of a failed evaluation, and at the level of information. -/
def isErrorRecord (record : Record) : Bool :=
  record.level = .info && record.message = "calculator.error"

variable {service}

theorem Leaves.ofCalculator {request : Request} {answer : Except Refusal Answer}
    {block : List Record} (h : Leaves service request answer block) :
    ∀ record ∈ block, OfCalculator record.logger := by
  cases h with
  | evaluation_refused | preview_refused | evaluated | hidden | previewed => nofun
  | evaluation_failed short failure isError fault error =>
      exact List.forall_mem_cons.2
        ⟨fault.ofCalculator, List.forall_mem_singleton.2 error.ofCalculator⟩
  | preview_failed short calculated failure fault =>
      exact List.forall_mem_singleton.2 fault.ofCalculator

theorem TellsFault.isErrorRecord_eq_false {expression : String} {record : Record}
    (h : TellsFault expression record) : isErrorRecord record = false := by
  rw [isErrorRecord, h.level]
  rfl

theorem TellsError.isErrorRecord_eq_true {expression : String} {record : Record}
    (h : TellsError expression record) : isErrorRecord record = true := by
  rw [isErrorRecord, h.level, h.message]
  rfl

/-- A request leaves one record of an error if it was an evaluation that failed, and else none. -/
theorem Leaves.countP_eq {request : Request} {answer : Except Refusal Answer}
    {block : List Record} (h : Leaves service request answer block) :
    block.countP isErrorRecord = if isFailedEvaluation answer then 1 else 0 := by
  cases h with
  | evaluation_refused | preview_refused | hidden | previewed => rfl
  | evaluated short success isError =>
      rw [isFailedEvaluation, isError]
      rfl
  | evaluation_failed short failure isError fault error =>
      simp [isFailedEvaluation, isError, fault.isErrorRecord_eq_false, error.isErrorRecord_eq_true]
  | preview_failed short calculated failure fault =>
      simp [isFailedEvaluation, fault.isErrorRecord_eq_false]

namespace Recorded

variable {requests : List Request} {answers : List (Except Refusal Answer)}
  {records : List Record}

theorem ofCalculator (h : Recorded service requests answers records) :
    ∀ record ∈ records, OfCalculator record.logger := by
  induction h with
  | nil => nofun
  | cons first rest ih => exact List.forall_mem_append.2 ⟨first.ofCalculator, ih⟩

/-- There are as many records of errors as evaluations that failed. -/
theorem countP_eq (h : Recorded service requests answers records) :
    records.countP isErrorRecord = answers.countP isFailedEvaluation := by
  induction h with
  | nil => rfl
  | cons first rest ih =>
      rw [List.countP_append, first.countP_eq, ih, List.countP_cons]
      exact Nat.add_comm _ _

/-- Of the records of a run those are enabled that reach the level that was asked for. -/
theorem enabled_iff (h : Recorded service requests answers records) {level : String}
    {requested : Level} (hlevel : Level.ofName? (upper level) = some requested) {record : Record}
    (mem : record ∈ records) :
    Routing.Enabled ⟨(Configuration.ofLevel level).threshold []⟩ record ↔
      requested.effective.rank ≤ record.level.rank := by
  change ((Configuration.ofLevel level).threshold [] record.logger).rank ≤ _ ↔ _
  rw [Configuration.threshold_of_calculator hlevel (h.ofCalculator record mem)]

end Recorded

/-- Records of errors are written all or none, depending on the threshold. -/
theorem countP_isErrorRecord_filter (threshold : Nat) (records : List Record) :
    (records.filter (threshold ≤ ·.level.rank)).countP isErrorRecord =
      if threshold ≤ Level.info.rank then records.countP isErrorRecord else 0 := by
  have hlevel : ∀ record, isErrorRecord record = true → record.level = .info := by
    intro record h
    simp only [isErrorRecord, Bool.and_eq_true, decide_eq_true_eq] at h
    exact h.1
  rw [List.countP_filter]
  split
  · next hle =>
      refine List.countP_congr fun record _ => ?_
      rw [Bool.and_eq_true, decide_eq_true_eq]
      exact ⟨And.left, fun h => ⟨h, hlevel record h ▸ hle⟩⟩
  · next hlt =>
      rw [List.countP_eq_zero]
      intro record _ h
      rw [Bool.and_eq_true, decide_eq_true_eq] at h
      exact hlt (hlevel record h.1 ▸ h.2)

/-- **Every failure is recorded, and only failures are**, at every known level: a run leaves what
its requests leave, of which that is written which reaches the threshold.  There are as many
records of errors as evaluations that failed, and if the threshold allows they are all written. -/
theorem run_records_failures (service : Service) {level : String} {requested : Level}
    (h : Level.ofName? (upper level) = some requested) (requests : List Request)
    (id : Option RequestId) :
    let answers := (service.run requests).1
    let records := (service.run requests).2
    let written := records.filter (requested.effective.rank ≤ ·.level.rank)
    Recorded service requests answers records ∧
      (∃ routing, Routing.ofLevel level = .ok routing ∧
        routing.write (records.map (·, id)) = written.map (·.line id)) ∧
      records.countP isErrorRecord = answers.countP isFailedEvaluation ∧
      written.countP isErrorRecord =
        if requested.effective.rank ≤ Level.info.rank then answers.countP isFailedEvaluation
        else 0 := by
  intro answers records written
  have hrun : Recorded service requests answers records := service.recorded_run requests
  refine ⟨hrun, ⟨_, Routing.ofLevel_of_ofName? h, ?_⟩, hrun.countP_eq, ?_⟩
  · rw [Routing.write_records]
    congr 1
    exact List.filter_congr fun record mem => decide_eq_decide.2 (hrun.enabled_iff h mem)
  · rw [← hrun.countP_eq]
    exact countP_isErrorRecord_filter requested.effective.rank records

/-- Under a limit of four characters, with the lowest level: what is too long leaves nothing, and of
the two failures the evaluation alone is written. -/
theorem run_records_failures_notset :
    let service : Service := ⟨4⟩
    let requests : List Request := [.evaluate "1+1+1", .evaluate "1×)÷", .preview "2×)3"]
    Level.ofName? (upper "NotSet") = some .notset ∧
      Recorded service requests (service.run requests).1 (service.run requests).2 ∧
      ((service.run requests).2.filter (Level.info.rank ≤ ·.level.rank)).countP isErrorRecord =
        1 := by
  intro service requests
  have hlevel : Level.ofName? (upper "NotSet") = some .notset := by decide
  obtain ⟨hrun, -, -, hwritten⟩ := run_records_failures service hlevel requests none
  refine ⟨hlevel, hrun, hwritten.trans ?_⟩
  decide

end Calculator.Service
