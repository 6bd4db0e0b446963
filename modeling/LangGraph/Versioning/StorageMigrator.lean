import LangGraph.Foundation.Storage

/-!
# Storage schema versions and migrations

The version of a storage stands under a key of its own, as a decimal text.  A migrator holds
migrations, at most one for each source version, and every one raises the version.
-/

namespace LangGraph

open ExceptList

/-! ## 1. Versions -/

/-- A version is a 32-bit number in the source; `bounded` and `parseVersion` keep it below
    `2 ^ 32`. -/
structure VersionPolicy where
  name : Bytes
  minSupported : Nat
  current : Nat
  bounded : current < 2 ^ 32

def storageSchemaVersionPolicy : VersionPolicy :=
  ⟨lit "storage_schema", 0, 1, by decide⟩

def requireSupportedVersion (version : Nat) (policy : VersionPolicy) : Result Unit :=
  if version < policy.minSupported then
    .error (.failedPrecondition (policy.name ++ lit " version is too old"))
  else if policy.current < version then
    .error (.unimplemented
      (policy.name ++ lit " version is newer than this runtime supports"))
  else .ok ()

/-- `std::from_chars` on a 64-bit number, which has to use the whole text. -/
def parseVersion (text : Bytes) : Result Nat :=
  if text = [] then .error (.invalidArgument (lit "storage schema version is empty"))
  else if text.any (fun ch => ch < 48 || 57 < ch) || 2 ^ 64 ≤ ByteString.digitsValue text then
    .error (.invalidArgument (lit "storage schema version must be an unsigned integer"))
  else if 2 ^ 32 ≤ ByteString.digitsValue text then
    .error (.resourceExhausted (lit "storage schema version is too large"))
  else .ok (ByteString.digitsValue text)

theorem parseVersion_decimal {version : Nat} (h : version < 2 ^ 32) :
    parseVersion (decimal version) = .ok version := by
  have hdigits : (decimal version).any (fun ch => ch < 48 || 57 < ch) = false := by
    rw [List.any_eq_false]
    intro ch hch
    obtain ⟨hlow, hhigh⟩ := ByteString.mem_decimalLoop hch
    simp only [Bool.or_eq_true, decide_eq_true_eq, not_or, UInt8.not_lt]
    exact ⟨UInt8.le_iff_toNat_le.mpr hlow, UInt8.le_iff_toNat_le.mpr hhigh⟩
  have hlong : ¬ 2 ^ 64 ≤ version := by omega
  rw [parseVersion, if_neg (ByteString.decimal_ne_nil version), ByteString.digitsValue_decimal,
    hdigits, if_neg (by simpa using hlong), if_neg (Nat.not_le.mpr h)]

/-- `validateVersionKey`, with the limits that are the default. -/
def validateVersionKey (key : StorageKey) : Result Unit := validateStorageKey {} key

section Stored

variable (policy : VersionPolicy) (limits : StorageLimits)

def decodeVersion (text : Bytes) : Result Nat := do
  let version ← parseVersion text
  requireSupportedVersion version policy
  return version

def readStorageSchemaVersion (key : StorageKey) (storage : MemoryStorage) :
    Result (Option Nat) := do
  validateVersionKey key
  let item ← storage.get limits key
  match item with
  | none => return none
  | some text => return some (← decodeVersion policy text)

def writeStorageSchemaVersion (key : StorageKey) (version : Nat) (storage : MemoryStorage) :
    Result MemoryStorage := do
  validateVersionKey key
  requireSupportedVersion version policy
  storage.put limits key (decimal version) .upsert

variable {policy limits} {key : StorageKey} {storage storage' : MemoryStorage}

theorem readStorageSchemaVersion_congr (h : storage'.find key = storage.find key) :
    readStorageSchemaVersion policy limits key storage' =
      readStorageSchemaVersion policy limits key storage := by
  simp only [readStorageSchemaVersion, MemoryStorage.get, h]

theorem read_of_write {version : Nat}
    (h : writeStorageSchemaVersion policy limits key version storage = .ok storage') :
    readStorageSchemaVersion policy limits key storage' = .ok (some version) ∧
      storage' = storage.set key (decimal version) := by
  obtain ⟨⟨⟩, hvalid, h⟩ := of_bind h
  obtain ⟨⟨⟩, hsupported, hput⟩ := of_bind h
  obtain ⟨hkey, rfl⟩ := MemoryStorage.put_ok hput
  refine ⟨?_, rfl⟩
  have hbound : version < 2 ^ 32 := by
    have hcurrent := policy.bounded
    simp only [requireSupportedVersion] at hsupported
    split_ifs at hsupported
    omega
  have hdecoded : decodeVersion policy (decimal version) = .ok version := by
    rw [decodeVersion, parseVersion_decimal hbound, ok_bind, hsupported]; rfl
  have hget : (storage.set key (decimal version)).get limits key = .ok (some (decimal version)) := by
    rw [MemoryStorage.get, hkey, MemoryStorage.find_set_self]; rfl
  simp only [readStorageSchemaVersion, hvalid, hget, ok_bind, hdecoded]; rfl

end Stored

/-! ## 2. Migrations -/

structure StorageMigration where
  fromVersion : Nat
  toVersion : Nat
  name : Bytes
  migrate : Option (MemoryStorage → MemoryStorage)

def StorageMigration.apply (migration : StorageMigration) (storage : MemoryStorage) :
    MemoryStorage :=
  match migration.migrate with
  | none => storage
  | some migrate => migrate storage

def validateMigration (policy : VersionPolicy) (migration : StorageMigration) : Result Unit := do
  require (migration.name ≠ []) (.invalidArgument (lit "storage migration name cannot be empty"))
  require migration.migrate.isSome
    (.invalidArgument (lit "storage migration callback cannot be empty"))
  require (migration.fromVersion < migration.toVersion)
    (.invalidArgument (lit "storage migration must increase version"))
  requireSupportedVersion migration.fromVersion policy
  requireSupportedVersion migration.toVersion policy

theorem increases_of_validate {policy : VersionPolicy} {migration : StorageMigration}
    (h : validateMigration policy migration = .ok ()) :
    migration.fromVersion < migration.toVersion := by
  obtain ⟨_, -, h⟩ := of_bind h
  obtain ⟨_, -, h⟩ := of_bind h
  obtain ⟨_, h, -⟩ := of_bind h
  exact of_decide_eq_true (require_eq_ok.mp h)

structure StorageMigrator where
  targetVersion : Nat
  migrations : List StorageMigration
  /-- `add` refuses a migration that does not raise the version. -/
  increases : ∀ migration ∈ migrations, migration.fromVersion < migration.toVersion

namespace StorageMigrator

def empty (targetVersion : Nat) : StorageMigrator := ⟨targetVersion, [], nofun⟩

def add (policy : VersionPolicy) (migrator : StorageMigrator) (migration : StorageMigration) :
    Result StorageMigrator :=
  match hvalid : validateMigration policy migration with
  | .error status => .error status
  | .ok () =>
    if migrator.targetVersion < migration.toVersion then
      .error (.invalidArgument (lit "storage migration target exceeds migrator target"))
    else if migrator.migrations.any fun existing =>
        existing.fromVersion = migration.fromVersion then
      .error (.alreadyExists (lit "storage migration already registered for source version"))
    else .ok
      { targetVersion := migrator.targetVersion
        migrations := migrator.migrations.orderedInsert
          (fun lhs rhs => lhs.fromVersion ≤ rhs.fromVersion) migration
        increases := by
          intro other hother
          rcases (List.mem_orderedInsert _).mp hother with rfl | hother
          · exact increases_of_validate hvalid
          · exact migrator.increases other hother }

def findMigration (migrator : StorageMigrator) (current target : Nat) :
    Option StorageMigration :=
  migrator.migrations.find? fun migration =>
    decide (migration.fromVersion = current ∧ migration.toVersion ≤ target)

theorem findMigration_eq_some {migrator : StorageMigrator} {current target : Nat}
    {migration : StorageMigration} (h : migrator.findMigration current target = some migration) :
    migration ∈ migrator.migrations ∧ migration.fromVersion = current ∧
      current < migration.toVersion ∧ migration.toVersion ≤ target := by
  have hmem := List.mem_of_find?_eq_some h
  have hfound := List.find?_some h
  obtain ⟨rfl, htarget⟩ := of_decide_eq_true hfound
  exact ⟨hmem, rfl, migrator.increases migration hmem, htarget⟩

/-- The loop of `validateMigrationPath`.  Every migration raises the version, so `target - current`
    of them are enough. -/
def validateMigrationPathLoop (migrator : StorageMigrator) (target : Nat) :
    Nat → Nat → Result Unit
  | 0, _ => .ok ()
  | fuel + 1, current =>
    if current < target then
      match migrator.findMigration current target with
      | none => .error (.failedPrecondition (lit "missing storage migration"))
      | some migration => validateMigrationPathLoop migrator target fuel migration.toVersion
    else .ok ()

def validateMigrationPath (migrator : StorageMigrator) (current target : Nat) : Result Unit :=
  migrator.validateMigrationPathLoop target (target - current) current

end StorageMigrator

end LangGraph
