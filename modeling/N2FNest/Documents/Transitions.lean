import N2FNest.Documents.Storable

/-! What the transitions of a document leave alone. -/

namespace N2FNest.Documents

open Lib Shared

/-- What makes it the same document, and the version it was loaded at. -/
structure SameDocument (document next : Document) : Prop where
  id : next.id = document.id
  organizationId : next.organizationId = document.organizationId
  name : next.name = document.name
  storageKey : next.storageKey = document.storageKey
  createdAt : next.createdAt = document.createdAt
  version : next.version = document.version

namespace Document

variable {document next : Document} {time : JsDate}

theorem archive_same (done : document.archive time = .ok next) : SameDocument document next := by
  obtain ⟨at', _, _, _, state⟩ := archive_inv done
  constructor <;> rw [state]

theorem beginProcessing_same {run : ID} (done : document.beginProcessing time run = .ok next) :
    SameDocument document next := by
  cases time with
  | none => cases done
  | some moment =>
    rcases beginProcessing_inv moment done with ⟨same, _⟩ | ⟨_, state⟩
    · subst same
      exact ⟨rfl, rfl, rfl, rfl, rfl, rfl⟩
    · constructor <;> rw [state]

theorem applyProcessingOutcome_same {outcome : ProcessingOutcome}
    (done : document.applyProcessingOutcome time outcome = .ok next) :
    SameDocument document next := by
  rcases apply_inv done with same | ⟨moment, attempt, status, code, _, _, _, _, state⟩
  · subst same
    exact ⟨rfl, rfl, rfl, rfl, rfl, rfl⟩
  · constructor <;> (rw [state]; rfl)

/-- A new document has the identity and the organization it was asked for. -/
theorem create_names {input : CreateDocumentInput} (created : create input = .ok next) :
    next.id = input.id ∧ next.organizationId = input.organizationId ∧ next.version = UNSAVED := by
  obtain ⟨_, _, body⟩ := bind_ok created
  obtain ⟨_, _, body⟩ := bind_ok body
  cases moment : input.createdAt with
  | none => simp [moment] at body
  | some createdAt =>
    simp only [moment, pure_eq_ok] at body
    subst body
    exact ⟨rfl, rfl, rfl⟩

end Document

end N2FNest.Documents
