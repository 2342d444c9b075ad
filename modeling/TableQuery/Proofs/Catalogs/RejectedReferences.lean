import TableQuery.Resolution

/-! Why a reference is not resolved, for every kind of catalog.
The diagnostic names a part of the reference that is unknown, and points at that part, or the
first part, which is ambiguous, and points at the whole reference.
-/

namespace TableQuery

namespace NameFault

/-- What is unknown: its level in a catalog, and the name that is not found there. -/
def unknown? : NameFault → Option (String × String)
  | unknownTable table | unknownTableInSchema table _ | unknownTableInDatabase table _ _ =>
      some ("table", table)
  | unknownSchema schema | unknownSchemaInDatabase schema _ => some ("schema", schema)
  | unknownDatabase database => some ("database", database)
  | unknownColumn column => some ("column", column)
  | ambiguousTable _ | ambiguousSchema _ | described _ => none

/-- What is ambiguous: its level in a catalog, and the name that is found more than once. -/
def ambiguous? : NameFault → Option (String × String)
  | ambiguousTable table => some ("tables", table)
  | ambiguousSchema schema => some ("schemas", schema)
  | unknownTable _ | unknownSchema _ | unknownTableInSchema _ _ | unknownDatabase _
  | unknownSchemaInDatabase _ _ | unknownTableInDatabase _ _ _ | unknownColumn _
  | described _ => none

variable {fault : NameFault} {level name : String}

/-- A message about an unknown name begins with the name. -/
theorem exists_message_of_unknown? (named : fault.unknown? = some (level, name))
    : ∃ context, fault.message = s!"Unknown {level} '{name}'" ++ context := by
  cases fault with
  | ambiguousTable | ambiguousSchema | described => cases named
  | unknownTable | unknownSchema | unknownDatabase | unknownColumn =>
      cases named
      exact ⟨"", String.append_empty.symm⟩
  | unknownTableInSchema _ schema =>
      cases named
      refine ⟨s!" in schema '{schema}'", ?_⟩
      change "Unknown table '" ++ name ++ ("'" ++ " in schema '") ++ schema ++ "'"
        = "Unknown table '" ++ name ++ "'" ++ (" in schema '" ++ schema ++ "'")
      simp only [String.append_assoc]
  | unknownSchemaInDatabase _ database =>
      cases named
      refine ⟨s!" in database '{database}'", ?_⟩
      change "Unknown schema '" ++ name ++ ("'" ++ " in database '") ++ database ++ "'"
        = "Unknown schema '" ++ name ++ "'" ++ (" in database '" ++ database ++ "'")
      simp only [String.append_assoc]
  | unknownTableInDatabase _ schema database =>
      cases named
      refine ⟨s!" in schema '{schema}' of database '{database}'", ?_⟩
      change "Unknown table '" ++ name ++ ("'" ++ " in schema '") ++ schema
          ++ "' of database '" ++ database ++ "'"
        = "Unknown table '" ++ name ++ "'"
          ++ (" in schema '" ++ schema ++ "' of database '" ++ database ++ "'")
      simp only [String.append_assoc]

/-- A message about an ambiguous name begins with the name and then gives advice. -/
theorem exists_message_of_ambiguous? (named : fault.ambiguous? = some (level, name))
    : ∃ advice, fault.message = s!"Multiple {level} with name '{name}'. " ++ advice := by
  cases fault with
  | ambiguousTable =>
      cases named
      refine ⟨"Schema name must be provided", ?_⟩
      change "Multiple tables with name '" ++ name ++ ("'. " ++ "Schema name must be provided")
        = "Multiple tables with name '" ++ name ++ "'. " ++ "Schema name must be provided"
      simp only [String.append_assoc]
  | ambiguousSchema =>
      cases named
      refine ⟨"Catalog name must be provided", ?_⟩
      change "Multiple schemas with name '" ++ name
          ++ ("'. " ++ "Catalog name must be provided")
        = "Multiple schemas with name '" ++ name ++ "'. " ++ "Catalog name must be provided"
      simp only [String.append_assoc]
  | unknownTable | unknownSchema | unknownTableInSchema | unknownDatabase
  | unknownSchemaInDatabase | unknownTableInDatabase | unknownColumn | described =>
      cases named

end NameFault

/-- Why a reference is not resolved: a name of it is unknown, which is where the diagnostic
points, or its first name is ambiguous, and then the diagnostic points at all of it.
-/
inductive TableRef.RejectedFor (reference : TableRef) : Diagnostic → Prop
  | unknown {part : Identifier} {fault level} (member : part ∈ reference.parts)
    (named : fault.unknown? = some (level, part.name))
    : RejectedFor reference (.semantic fault (some part.span))
  | ambiguous {fault level} (named : fault.ambiguous? = some (level, reference.first.name))
    : RejectedFor reference (.semantic fault (some reference.span))

namespace Catalog

variable {catalog : Catalog} {reference : TableRef} {diagnostic : Diagnostic}

theorem rejectedFor_of_resolveTable {table : Identifier} (parts : reference.parts = [table])
    (rejected : catalog.resolveTable reference table = .error diagnostic)
    : reference.RejectedFor diagnostic := by
  obtain rfl : reference.first = table := (List.cons.inj parts).1
  rw [resolveTable] at rejected
  split at rejected <;> cases rejected
  · exact .unknown List.mem_cons_self rfl
  · exact .ambiguous rfl

theorem rejectedFor_of_resolveInSchema {schema table : Identifier}
    (parts : reference.parts = [schema, table])
    (rejected : catalog.resolveInSchema reference schema table = .error diagnostic)
    : reference.RejectedFor diagnostic := by
  obtain rfl : reference.first = schema := (List.cons.inj parts).1
  rw [resolveInSchema] at rejected
  split at rejected
  · cases rejected
    exact .unknown List.mem_cons_self rfl
  · split at rejected <;> cases rejected
    have member : table ∈ reference.parts := by simp [parts]
    exact .unknown member rfl
  · cases rejected
    exact .ambiguous rfl

theorem rejectedFor_of_resolveInDatabase {database schema table : Identifier}
    (parts : reference.parts = [database, schema, table])
    (rejected : catalog.resolveInDatabase database schema table = .error diagnostic)
    : reference.RejectedFor diagnostic := by
  have members : ∀ part ∈ [database, schema, table], part ∈ reference.parts := by
    simp [parts]
  simp only [List.forall_mem_cons] at members
  obtain ⟨databaseMember, schemaMember, tableMember, _⟩ := members
  rw [resolveInDatabase] at rejected
  split at rejected
  · cases rejected
    exact .unknown databaseMember rfl
  · split at rejected
    · cases rejected
      exact .unknown schemaMember rfl
    · split at rejected <;> cases rejected
      exact .unknown tableMember rfl

/-- A reference within the limit is rejected for one of its names. -/
theorem rejectedFor_of_resolve (inLimit : reference.parts.length ≤ 3)
    (rejected : catalog.resolve reference = .error diagnostic)
    : reference.RejectedFor diagnostic := by
  rw [resolve] at rejected
  split at rejected
  · rename_i table parts
    exact rejectedFor_of_resolveTable parts rejected
  · rename_i schema table parts
    exact rejectedFor_of_resolveInSchema parts rejected
  · rename_i database schema table parts
    exact rejectedFor_of_resolveInDatabase parts rejected
  · rename_i notOne notTwo notThree
    match parts : reference.parts with
    | [] => cases parts
    | [table] => exact absurd parts (notOne table)
    | [schema, table] => exact absurd parts (notTwo schema table)
    | [database, schema, table] => exact absurd parts (notThree database schema table)
    | _ :: _ :: _ :: _ :: _ =>
        rw [parts] at inLimit
        simp only [List.length_cons] at inLimit
        omega

/-- What a reference is rejected for is semantic, whichever name it is. -/
theorem stage_of_resolve_eq_error (inLimit : reference.parts.length ≤ 3)
    (rejected : catalog.resolve reference = .error diagnostic)
    : diagnostic.stage = .semantic := by
  cases rejectedFor_of_resolve inLimit rejected <;> rfl

end Catalog

end TableQuery
