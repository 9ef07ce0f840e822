import OpencodePty.MigratedJournals

/-!
# The writes of a migration

A migration writes and removes the files of chunks, writes the metadata, removes the old output
file and writes the metadata once more. What is in the directory after each of these writes is
listed here beside the functions of the load, and the last entry of the list is what the load
leaves. A load that is interrupted leaves one of the entries before it.
-/

namespace OpencodePty.SessionLoading

open OpencodePty.JsValues OpencodePty.Lifecycle OpencodePty.RecordChecks OpencodePty.OutputJournal
  OpencodePty.SessionCodec OpencodePty.TextEncodings

/-- A record without the note that its old output is still to be removed. -/
def unmarked (record : SessionRecord) : SessionRecord :=
  { record with flat := { record.flat with legacyOutputCleanupPending := none } }

section Writes

variable (dateParse : JsString → Option Int) (darwin : Bool)
  (realpath : JsString → Option JsString)

/-- The write of the metadata of a migrated record. -/
def metadataWrites (decoded : DecodedSession) (files : SessionFiles) (migrated : SessionRecord) :
    List SessionFiles :=
  if decoded.forceMetadataWrite || !sameJournalState decoded.record migrated then
    match writeSession dateParse darwin migrated with
    | .error _ => []
    | .ok (_, persisted) => [{ files with metadata := some (some persisted) }]
  else []

/-- The writes of `removeLegacy`. -/
def removalWrites (files : SessionFiles) (record : SessionRecord) : List SessionFiles :=
  let files := { files with legacyOutput := none }
  files ::
    if truthy record.flat.legacyOutputCleanupPending then
      match writeSession dateParse darwin (unmarked record) with
      | .ok (_, persisted) => [{ files with metadata := some (some persisted) }]
      | .error _ => []
    else []

def settleWrites (decoded : DecodedSession) : Migration → List SessionFiles
  | (_, .error _) => []
  | (files, .ok record) =>
    if decoded.removeLegacyOutput then removalWrites dateParse darwin files record else []

/-- The writes of `migrateSession`. -/
def migrationWrites (decoded : DecodedSession) (files : SessionFiles) : List SessionFiles :=
  (retainWrites dateParse decoded.record decoded.importLegacyOutput files).map
      (fun directory => { files with output := directory }) ++
    match retainOutput dateParse decoded.record decoded.importLegacyOutput files with
    | .error _ => []
    | .ok (directory, chunks) =>
      let retained := { files with output := directory }
      let migrated := reconcileSession decoded.record chunks
      metadataWrites dateParse darwin decoded retained migrated ++
        settleWrites dateParse darwin decoded
          (writeMigrated dateParse darwin decoded retained migrated)

/-- The directory of a session after each write of its load. A move to the quarantine is one
write. -/
def loadWrites (entry : Option SessionFiles) (id : JsString) : List (Option SessionFiles) :=
  match entry.bind SessionFiles.metadata with
  | none => []
  | some none => [none]
  | some (some source) =>
    match decodeSession dateParse darwin realpath source id with
    | .error .typeError | .error (.unsupported _) => []
    | .error .invalid => [none]
    | .ok decoded =>
      let files := entry.getD .missing
      (migrationWrites dateParse darwin decoded files).map some ++
        match migrateSession dateParse darwin decoded files with
        | .error _ => [none]
        | .ok _ => []

end Writes

variable {dateParse : JsString → Option Int} {darwin : Bool}
  {realpath : JsString → Option JsString} {record : SessionRecord} {importing : Bool}
  {files : SessionFiles} {directory : Directory} {chunks : List OutputChunk}

/-! ## Directories whose records are decoded -/

section Decoded

variable {source : Js} {id : JsString} {decoded : DecodedSession}

/-- The writes of a load whose record is decoded. -/
theorem loadWrites_decoded (stored : files.metadata = some (some source))
    (decodes : decodeSession dateParse darwin realpath source id = .ok decoded) :
    loadWrites dateParse darwin realpath (some files) id =
      (migrationWrites dateParse darwin decoded files).map some ++
        match migrateSession dateParse darwin decoded files with
        | .error _ => [none]
        | .ok _ => [] := by
  simp only [loadWrites, Option.bind_some, stored, decodes, Option.getD_some]

/-- What a load leaves and returns whose record is decoded. -/
theorem readAlone_decoded (stored : files.metadata = some (some source))
    (decodes : decodeSession dateParse darwin realpath source id = .ok decoded) :
    readAlone dateParse darwin realpath (some files) id =
      match migrateSession dateParse darwin decoded files with
      | .error error => (none, .quarantined (.journal error))
      | .ok (left, .error error) => (some left, .rejected error)
      | .ok (left, .ok record) => (some left, .returned record) := by
  simp only [readAlone, readSession, Function.update_self, Option.bind_some, stored, decodes,
    decoded_id decodes, Option.getD_some]
  cases migrateSession dateParse darwin decoded files with
  | error error => simp only [concludeMigration, Function.update_self]
  | ok migration =>
    obtain ⟨left, result⟩ := migration
    cases result <;> simp only [concludeMigration, Function.update_self]

end Decoded

/-! ## The last write -/

end OpencodePty.SessionLoading
