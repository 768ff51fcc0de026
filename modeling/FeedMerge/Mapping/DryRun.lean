import FeedMerge.Projection

/-!
# Dry runs

A dry run reads a mapping and projects one sample under it, from an empty context, without any file.
It tells at which stage it failed, or what was emitted from where.
-/

namespace FeedMerge.Mapping

/-- The result of a dry run that does not stumble over a timestamp beyond the calendar. -/
inductive DryRun where
  | badStructure (fault : Fault)
  | badProjection (fault : Fault)
  | passed (mapping : Mapping) (emissions : List Emission)

/-- The projection of a sample under a mapping. -/
def project (m : Mapping) (context : Context) (document : Json) : Projection :=
  .ofDocument m.rules context document

/-- The outcome of a dry run at a reading of the clock, with the emissions made before a failure. -/
def dryRun (now : Timestamp) (mapping sample : Json) :
    Except Timestamp.RangeError DryRun × List Emission :=
  match ofJson .root mapping with
  | .error fault => (.ok (.badStructure fault), [])
  | .ok m =>
    let projection := m.project (.empty now) sample
    match projection.error with
    | some (.fault fault) => (.ok (.badProjection fault), projection.emissions)
    | some (.timestamp error) => (.error error, projection.emissions)
    | none => (.ok (.passed m projection.emissions), projection.emissions)

/-- The distinct names that a mapping gives values to, sorted. -/
def targetNames (m : Mapping) : List String :=
  (m.targets.eraseDups).mergeSort fun a b => a ≤ b

/-- An emission as JSON: where it was made, and the values that it was made from. -/
def emissionJson (e : Emission) : Json :=
  .object [("path", .string e.context.location.text), ("context", .object e.context.values)]

/-- The report of a dry run. -/
def DryRun.toJson : DryRun → Json
  | badStructure fault =>
    .object [("ok", .bool false), ("stage", .string "structure"), ("error", .string fault.message)]
  | badProjection fault =>
    .object [("ok", .bool false), ("stage", .string "projection"), ("error", .string fault.message)]
  | passed m emissions =>
    .object [("ok", .bool true), ("records", .int emissions.length), ("mapping", m.toJson),
      ("fields", .array (m.targetNames.map .string)),
      ("trace", .array (emissions.map emissionJson))]

end FeedMerge.Mapping
