import N2FNest.Documents.InMemory
import N2FNest.Documents.Storable
import N2FNest.Pagination.Select

/-! The PostgreSQL adapters of Documents. A commit is one transaction over the document
table and the outbox: it changes both or neither. -/

namespace N2FNest.Documents

open Events Lib Pagination Shared

private theorem trim_keeps {units kept : List UInt16}
    (alike : List.Forall₂ (fun unit other => JsString.isSpace unit = JsString.isSpace other) units kept)
    (trimmed : JsString.trim ⟨units⟩ = ⟨units⟩) : JsString.trim ⟨kept⟩ = ⟨kept⟩ := by
  have left : units.dropWhile JsString.isSpace = units ∧
      units.reverse.dropWhile JsString.isSpace = units.reverse := by
    have same : ((units.dropWhile JsString.isSpace).reverse.dropWhile JsString.isSpace).reverse =
        units := congrArg JsString.units trimmed
    have shorter := (List.dropWhile_suffix JsString.isSpace (l := units)).length_le
    have again := (List.dropWhile_suffix JsString.isSpace
      (l := (units.dropWhile JsString.isSpace).reverse)).length_le
    have lengths := congrArg List.length same
    rw [List.length_reverse] at lengths again
    have front : units.dropWhile JsString.isSpace = units :=
      (List.dropWhile_suffix JsString.isSpace).eq_of_length (by omega)
    refine ⟨front, ?_⟩
    rw [front] at same
    rw [← List.reverse_eq_iff]
    exact same
  have drops : ∀ {first second : List UInt16},
      List.Forall₂ (fun unit other => JsString.isSpace unit = JsString.isSpace other) first second →
      first.dropWhile JsString.isSpace = first → second.dropWhile JsString.isSpace = second := by
    intro first second alike kept
    cases alike with
    | nil => rfl
    | @cons unit other rest others same _ =>
      have plain : JsString.isSpace unit = false := by
        by_contra space
        rw [List.dropWhile_cons_of_pos (by simpa using space)] at kept
        have shorter := (List.dropWhile_suffix JsString.isSpace (l := rest)).length_le
        rw [kept, List.length_cons] at shorter
        omega
      exact List.dropWhile_cons_of_neg (by rw [← same, plain]; exact Bool.false_ne_true)
  have front := drops alike left.1
  have back := drops (List.rel_reverse alike) left.2
  rw [JsString.trim, front, back, List.reverse_reverse]

/-- A normal text is normal in a column too. -/
theorem Normal.asColumn {most : Nat} {text kept : JsString} (normal : Normal most text)
    (stored : text.asColumn = some kept) : Normal most kept := by
  obtain ⟨trimmed, least, bound⟩ := normal
  unfold JsString.asColumn at stored
  split at stored
  · cases stored
  · cases stored
    have units := Utf16.encode_decode_units text.units
    have length := units.length_eq
    have alike : List.Forall₂ (fun unit other => JsString.isSpace unit = JsString.isSpace other)
        text.units (Utf16.encode (Utf16.decode text.units)) := by
      refine units.imp ?_
      intro unit other related
      rcases related with rfl | ⟨surrogate, rfl⟩
      · rfl
      · have plain : JsString.isSpace unit = false := by
          by_contra space
          rw [JsString.isSurrogate_of_isSpace (by simpa using space)] at surrogate
          cases surrogate
        rw [plain]
        decide
    refine ⟨trim_keeps alike trimmed, ?_, ?_⟩
    · show 1 ≤ (Utf16.encode (Utf16.decode text.units)).length
      rw [← length]
      exact least
    · show (Utf16.encode (Utf16.decode text.units)).length ≤ most
      rw [← length]
      exact bound

/-- A stored row. Only the writer stores rows, so a row keeps the rules of the document
it was made of, which say more than the CHECK constraints. -/
structure DocumentRow extends DocumentColumns where
  valid : toDocumentColumns.state.Valid
  stored : isStoredVersion toDocumentColumns.version = true
  deriving DecidableEq

/-- The document a row stands for. -/
def DocumentRow.document (row : DocumentRow) : Document := ⟨row.state, row.valid⟩

theorem DocumentRow.restore_eq (row : DocumentRow) : row.restore = .ok row.document := by
  have columns : row.document.columns = row.toDocumentColumns := rfl
  rw [← columns]
  exact row.document.restore_columns row.stored

abbrev DocumentTable := Table (fun row : DocumentRow => row.id)

theorem inserted_state {document : Document} {columns : DocumentColumns}
    (written : document.inserted = some columns) :
    columns.id = document.id ∧ columns.organizationId = document.organizationId ∧
      columns.version = FIRST ∧ columns.createdAt = document.createdAt ∧
      columns.updatedAt = document.updatedAt ∧
      ∀ (version attempt : Nat) (run : Option ID) (createdAt : Int), attempt ≤ 9007199254740991 →
        createdAt ≤ columns.updatedAt →
        ({ columns with
          version := version
          processingRun := run
          processingAttempt := attempt
          createdAt := createdAt } : DocumentColumns).state.Valid := by
  unfold Document.inserted at written
  cases named : document.name.asColumn with
  | none => simp [named] at written
  | some name =>
    have normal := document.valid.name.asColumn named
    cases keyed : document.storageKey with
    | none =>
      simp only [named, keyed, Option.bind_eq_bind, Option.bind_some, Option.pure_def,
        Option.some.injEq] at written
      subst written
      refine ⟨rfl, rfl, rfl, rfl, rfl, ?_⟩
      intro version attempt run createdAt bound since
      exact { name := normal
              storageKey := by simp [DocumentColumns.state]
              failureCode := document.valid.failureCode
              attempt := bound
              time := since
              lifecycle := document.valid.lifecycle }
    | some key =>
      cases held : key.asColumn with
      | none => simp [named, keyed, held] at written
      | some kept =>
        simp only [named, keyed, held, Option.bind_eq_bind, Option.bind_some, Option.map_some,
          Option.pure_def, Option.some.injEq] at written
        subst written
        refine ⟨rfl, rfl, rfl, rfl, rfl, ?_⟩
        intro version attempt run createdAt bound since
        have also := (document.valid.storageKey key keyed).asColumn held
        exact { name := normal
                storageKey := by
                  intro other same
                  cases same
                  exact also
                failureCode := document.valid.failureCode
                attempt := bound
                time := since
                lifecycle := document.valid.lifecycle }

/-- The row an INSERT leaves. The text parameters travel first. -/
def insertedRow (document : Document) : Option DocumentRow :=
  match written : document.inserted with
  | none => none
  | some columns => some {
      columns with
      version := FIRST
      processingRun := none
      processingAttempt := 0
      valid := (inserted_state written).2.2.2.2.2 FIRST 0 none columns.createdAt (Nat.zero_le _) (by
        obtain ⟨_, _, _, created, since, _⟩ := inserted_state written
        rw [created, since]
        exact document.valid.time)
      stored := by decide }

/-- The row an UPDATE leaves of `stored`; its creation time stays. -/
def updatedRow (document : Document) (stored : DocumentRow) : Option DocumentRow :=
  match written : document.inserted with
  | none => none
  | some columns =>
    if fits : stored.createdAt ≤ columns.updatedAt ∧ stored.version < 2147483647 then some {
      columns with
      createdAt := stored.createdAt
      version := stored.version + 1
      processingRun := document.processingRun
      processingAttempt := document.processingAttempt
      valid := (inserted_state written).2.2.2.2.2 (stored.version + 1) document.processingAttempt
        document.processingRun stored.createdAt document.valid.attempt fits.1
      stored := by
        have later : FIRST ≤ stored.version + 1 ∧ stored.version + 1 ≤ 9007199254740991 := by
          have bound := fits.2
          exact ⟨Nat.le_add_left 1 _, by omega⟩
        simpa only [isStoredVersion, Bool.and_eq_true, decide_eq_true_eq] using later }
    else none

/-- The INSERT of a commit. -/
def insertDocument (documents : DocumentTable) (document : Document) :
    Except Failure DocumentTable :=
  match insertedRow document with
  | none => .error databaseFailed
  | some row =>
    if row.constraints.all (·.2) = false then .error databaseFailed
    else match documents.get document.id with
      | some _ => .error documentExists
      | none => .ok (documents.set row)

/-- The UPDATE of a commit: only the row at the loaded version, in the document's
organization. The two numbers travel as `integer` parameters. -/
def updateDocument (documents : DocumentTable) (document : Document) :
    Except Failure DocumentTable :=
  if document.inserted = none ∨ 2147483647 < document.version ∨
      2147483647 < document.processingAttempt then .error databaseFailed
  else match documents.get document.id with
    | none => .error documentNotFound
    | some stored =>
      if stored.organizationId = document.organizationId ∧ stored.version = document.version then
        match updatedRow document stored with
        | none => .error databaseFailed
        | some row =>
          if row.constraints.all (·.2) = false then .error databaseFailed else .ok (documents.set row)
      else .error documentAggregate.staleWrite

def writeDocument (documents : DocumentTable) (mode : CommitMode) (document : Document) :
    Except Failure DocumentTable :=
  match mode with
  | .create => insertDocument documents document
  | .update => updateDocument documents document

/-- The row an accepted commit writes. -/
structure WritesDocument (documents : DocumentTable) (document : Document) (row : DocumentRow)
    (mode : CommitMode) : Prop where
  id : row.id = document.id
  organizationId : row.organizationId = document.organizationId
  create : mode = .create → documents.get document.id = none ∧ insertedRow document = some row
  update : mode = .update → ∃ stored, documents.get document.id = some stored ∧
    stored.organizationId = document.organizationId ∧ stored.version = document.version ∧
    updatedRow document stored = some row

theorem insertedRow_inv {document : Document} {row : DocumentRow}
    (made : insertedRow document = some row) : row.id = document.id ∧
      row.organizationId = document.organizationId ∧ row.version = FIRST := by
  unfold insertedRow at made
  split at made
  · cases made
  · rename_i columns written
    cases made
    obtain ⟨named, organization, _⟩ := inserted_state written
    exact ⟨named, organization, rfl⟩

theorem updatedRow_inv {document : Document} {stored row : DocumentRow}
    (made : updatedRow document stored = some row) : row.id = document.id ∧
      row.organizationId = document.organizationId ∧ row.version = stored.version + 1 := by
  unfold updatedRow at made
  split at made
  · cases made
  · rename_i columns written
    split at made
    · cases made
      obtain ⟨named, organization, _⟩ := inserted_state written
      exact ⟨named, organization, rfl⟩
    · cases made

theorem writeDocument_inv {documents next : DocumentTable} {mode : CommitMode} {document : Document}
    (done : writeDocument documents mode document = .ok next) :
    ∃ row, WritesDocument documents document row mode ∧ next = documents.set row := by
  cases mode with
  | create =>
    simp only [writeDocument, insertDocument] at done
    split at done
    · cases done
    · rename_i row made
      split at done
      · cases done
      · split at done
        · cases done
        · rename_i fresh
          cases done
          obtain ⟨named, organization, _⟩ := insertedRow_inv made
          exact ⟨row, ⟨named, organization, fun _ => ⟨fresh, made⟩, nofun⟩, rfl⟩
  | update =>
    simp only [writeDocument, updateDocument] at done
    split at done
    · cases done
    · split at done
      · cases done
      · rename_i stored found
        split at done
        · rename_i current
          split at done
          · cases done
          · rename_i row made
            split at done
            · cases done
            · cases done
              obtain ⟨named, organization, _⟩ := updatedRow_inv made
              exact ⟨row, ⟨named, organization, nofun,
                fun _ => ⟨stored, found, current.1, current.2, made⟩⟩, rfl⟩
        · cases done

/-- `PostgresDocumentReader.findById`. -/
def findById (documents : DocumentTable) (id : ID) : Except Failure (Option Document) :=
  match documents.get id with
  | none => .ok none
  | some row => row.restore.map some

theorem findById_eq (documents : DocumentTable) (id : ID) :
    findById documents id = .ok ((documents.get id).map DocumentRow.document) := by
  unfold findById
  cases documents.get id with
  | none => rfl
  | some row => simp [row.restore_eq, Except.map]

/-- `PostgresDocumentReader.listForOrganization`. -/
def listForOrganization (documents : DocumentTable) (organizationId : ID) (page : Request) :
    Except Failure (List Document) :=
  selectPage (documents.rows.filter fun row => row.organizationId = organizationId)
    (fun row => createdKey row.createdAt row.id) page >>= (·.mapM (·.restore))

end N2FNest.Documents
