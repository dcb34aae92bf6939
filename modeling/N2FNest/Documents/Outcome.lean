import N2FNest.Documents.Document

/-! How one processing outcome changes a document: unchanged when stale, and
otherwise a state that depends only on the outcome and the current status. -/

namespace N2FNest.Documents

open Lib Shared

namespace Document

variable {document : Document} {outcome : ProcessingOutcome} {attempt : Nat} (time : Int)

theorem apply_eq (read : outcome.attempt.safeNat? = some attempt) :
    document.applyProcessingOutcome (some time) outcome =
      document.applyAttempt time outcome attempt (safeNat?_le read) := by
  simp only [applyProcessingOutcome]
  split
  · rename_i missing
    rw [read] at missing
    cases missing
  · rename_i found same
    cases Option.some.inj (read.symm.trans same)
    rfl

theorem apply_stale (read : outcome.attempt.safeNat? = some attempt)
    (stale : document.isStale outcome.run attempt = true) :
    document.applyProcessingOutcome (some time) outcome = .ok document := by
  rw [apply_eq time read, applyAttempt, dif_pos stale]

/-- The document a fresh outcome leads to. -/
def Settles (document : Document) (run : ID) (attempt : Nat) (time : Int) (status : DocumentStatus)
    (code : Option JsString) (next : Document) : Prop :=
  next.toDocumentState = { document.reported run attempt time with
    status := status, processingFailureCode := code }

theorem apply_succeeded (read : outcome.attempt.safeNat? = some attempt)
    (fresh : ¬ document.isStale outcome.run attempt = true) (result : outcome.result = .succeeded) :
    ∃ next, document.applyProcessingOutcome (some time) outcome = .ok next ∧
      document.Settles outcome.run attempt time .processed none next := by
  rw [apply_eq time read, applyAttempt, dif_neg fresh]
  simp only [result]
  exact ⟨_, rfl, rfl⟩

theorem apply_retrying (read : outcome.attempt.safeNat? = some attempt)
    (fresh : ¬ document.isStale outcome.run attempt = true) (result : outcome.result = .retrying) :
    ∃ next, document.applyProcessingOutcome (some time) outcome = .ok next ∧
      if document.status = .processing ∧ attempt = document.processingAttempt then next = document
      else document.Settles outcome.run attempt time .processing none next := by
  rw [apply_eq time read, applyAttempt, dif_neg fresh]
  simp only [result]
  by_cases current : document.status = .processing
  · by_cases repeated : attempt = document.processingAttempt
    · exact ⟨document, by simp [current, repeated], by simp [current, repeated]⟩
    · -- the attempt moves on, and a processing document has no failure code to drop
      have shape := document.valid.lifecycle
      simp only [DocumentState.Lifecycle, current] at shape
      rw [dif_pos current, if_neg repeated]
      refine ⟨_, rfl, ?_⟩
      rw [if_neg (fun both => repeated both.2)]
      simp only [Settles, reported, ← current, ← shape.2]
  · rw [dif_neg current]
    refine ⟨_, rfl, ?_⟩
    rw [if_neg (fun both => current both.1)]
    rfl

theorem apply_failed {code : JsString} (read : outcome.attempt.safeNat? = some attempt)
    (fresh : ¬ document.isStale outcome.run attempt = true) (result : outcome.result = .failed)
    (reason : outcome.failureCode = .string code) (accepted : code.isToken 127 = true) :
    ∃ next, document.applyProcessingOutcome (some time) outcome = .ok next ∧
      if document.status = .processingFailed ∧ attempt = document.processingAttempt then
        next = document
      else document.Settles outcome.run attempt time .processingFailed (some code) next := by
  rw [apply_eq time read, applyAttempt, dif_neg fresh]
  simp only [result, reason, processingFailureCode, accepted, dite_true]
  by_cases repeated : document.status = .processingFailed ∧ attempt = document.processingAttempt
  · exact ⟨document, by simp [repeated], by simp [repeated]⟩
  · rw [if_neg repeated]
    refine ⟨_, rfl, ?_⟩
    rw [if_neg repeated]
    rfl

/-- A new document is active and on no run. -/
theorem create_inv {input : CreateDocumentInput} (created : create input = .ok document) :
    document.status = .active ∧ document.processingRun = none := by
  obtain ⟨_, _, body⟩ := bind_ok created
  obtain ⟨_, _, body⟩ := bind_ok body
  cases time : input.createdAt with
  | none => simp [time] at body
  | some createdAt =>
    simp only [time, pure_eq_ok] at body
    subst body
    exact ⟨rfl, rfl⟩

/-- An outcome never changes whose document it is. -/
theorem apply_same {next : Document}
    (done : document.applyProcessingOutcome (some time) outcome = .ok next) :
    next.id = document.id ∧ next.organizationId = document.organizationId := by
  cases read : outcome.attempt.safeNat? with
  | none =>
    simp only [applyProcessingOutcome] at done
    split at done
    · cases done
    · rename_i found
      rw [read] at found
      cases found
  | some attempt =>
    rw [apply_eq time read, applyAttempt] at done
    split at done
    · cases done
      exact ⟨rfl, rfl⟩
    · dsimp only at done
      split at done
      · cases done
        exact ⟨rfl, rfl⟩
      · split at done
        · split at done <;> cases done <;> exact ⟨rfl, rfl⟩
        · cases done
          exact ⟨rfl, rfl⟩
      · split at done
        · split at done <;> cases done <;> exact ⟨rfl, rfl⟩
        · cases done

/-- The document would start to wait on this run, which it is not waiting on yet. -/
def Begins (document : Document) (time : Int) (run : ID) : Prop :=
  document.updatedAt ≤ time ∧ document.status ≠ .archived ∧ document.status ≠ .processed ∧
    ¬ (document.status = .processing ∧ document.processingRun = some run)

/-- Beginning a run the document is not already on leaves it waiting at attempt 0. -/
theorem beginProcessing_inv {next : Document} {run : ID}
    (done : document.beginProcessing (some time) run = .ok next) :
    next = document ∧ document.status = .processing ∧ document.processingRun = some run ∨
      document.Begins time run ∧ next.toDocumentState = { document.toDocumentState with
        status := .processing
        processingFailureCode := none
        processingRun := some run
        processingAttempt := 0
        updatedAt := time } := by
  simp only [beginProcessing] at done
  split at done
  · rename_i later
    split at done
    · rename_i live
      split at done
      · rename_i waiting
        exact .inl ⟨(Except.ok.inj done).symm, waiting.1, waiting.2⟩
      · rename_i other
        split at done
        · cases done
        · rename_i unprocessed
          refine .inr ⟨⟨later, live, unprocessed, other⟩, ?_⟩
          exact congrArg Document.toDocumentState (Except.ok.inj done).symm
    · cases done
  · cases done

end Document

end N2FNest.Documents
