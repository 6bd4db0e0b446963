import LangGraph.Lib.Interleaving
import LangGraph.Versioning.StorageMigrator

/-!
# Migrations that run at the same time

`StorageMigrator::migrate` reads the version, inserts the lock key, runs the callbacks, writes the
version after each of them and removes the lock key.  Every one of these is a storage operation of
its own, and other calls may make theirs in between.  The version is not read again once the lock is
held: a call whose version is out of date by then runs callbacks that have run already.
-/

namespace LangGraph

namespace Migration

open ExceptList Function MemoryStorage List

/-! ## 1. Calls of migrate -/

inductive StorageMigrationMode where
  | initializeEmptyStorage
  | migrateLegacyStorage
deriving DecidableEq

structure Options where
  targetVersion : Option Nat := none
  missingVersionMode : StorageMigrationMode := .initializeEmptyStorage

/-- What the calls share.  The callbacks leave the version key and the lock key alone. -/
structure Setting where
  policy : VersionPolicy
  limits : StorageLimits := {}
  migrator : StorageMigrator
  versionKey : StorageKey := ⟨lit "__lc_system", lit "storage_schema_version"⟩
  lockKey : StorageKey := ⟨lit "__lc_system", lit "storage_schema_migration_lock"⟩
  leaves : ∀ migration ∈ migrator.migrations, ∀ storage,
    (migration.apply storage).find versionKey = storage.find versionKey ∧
      (migration.apply storage).find lockKey = storage.find lockKey

/-- What a call found under the version key, and so what it does with the lock. -/
inductive Purpose where
  | initial
  | legacy
  | migrate (current : Nat)
deriving DecidableEq

namespace Purpose

def stored : Purpose → Option Nat
  | .migrate current => some current
  | _ => none

def start : Purpose → Nat
  | .migrate current => current
  | _ => 0

def name : Purpose → Bytes
  | .initial => lit "initialize"
  | .legacy => lit "legacy"
  | .migrate _ => lit "migrate"

def migrationLockValue (purpose : Purpose) (target : Nat) : Bytes :=
  decimal purpose.start ++ lit ":" ++ decimal target ++ lit ":" ++ purpose.name

def result (purpose : Purpose) (current target : Nat) : Nat :=
  match purpose with
  | .migrate _ => current
  | _ => target

end Purpose

inductive Point where
  | idle
  | reading (mode : StorageMigrationMode) (target : Nat)
  | locking (purpose : Purpose) (target : Nat)
  /-- In `storageLooksEmpty`. -/
  | looking (target : Nat) (cursor : Option StorageKey)
  | initializing (target : Nat)
  /-- At the head of the loop over the migrations. -/
  | applying (purpose : Purpose) (current target : Nat)
  | writing (purpose : Purpose) (migration : StorageMigration) (target : Nat)
  | releasing (result : Nat)
  /-- On the way out with an error, in the destructor of the lock. -/
  | failing (status : Status)
  | done (result : Result Nat)

structure State where
  storage : MemoryStorage
  point : Nat → Point := fun _ => .idle
  /-- The callbacks that were run, the latest last. -/
  applied : List StorageMigration := []

inductive Move where
  | begin (call : Nat) (options : Options)
  | goOn (call : Nat)
  /-- Somebody writes or removes an item. -/
  | touch (key : StorageKey) (value : Option Bytes)

namespace State

variable (setting : Setting)

def moveTo (call : Nat) (point : Point) (s : State) : State :=
  { s with point := Function.update s.point call point }

def stored (s : State) : Result (Option Nat) :=
  readStorageSchemaVersion setting.policy setting.limits setting.versionKey s.storage

/-- The checks of `migrate` before it turns to the storage. -/
def checkOptions (options : Options) : Result Nat := do
  let target := options.targetVersion.getD setting.migrator.targetVersion
  require (target ≤ setting.migrator.targetVersion)
    (.invalidArgument (lit "storage migration requested target exceeds migrator target"))
  requireSupportedVersion target setting.policy
  validateVersionKey setting.versionKey
  validateVersionKey setting.lockKey
  require (setting.versionKey ≠ setting.lockKey)
    (.invalidArgument (lit "storage migration lock key must differ from version key"))
  return target

def plan (mode : StorageMigrationMode) (target : Nat) : Option Nat → Point
  | none =>
    match mode with
    | .initializeEmptyStorage => .locking .initial target
    | .migrateLegacyStorage =>
      match setting.migrator.validateMigrationPath 0 target with
      | .error status => .done (.error status)
      | .ok _ => .locking .legacy target
  | some current =>
    if target < current then
      .done (.error (.failedPrecondition
        (lit "storage schema version is newer than requested target")))
    else if current = target then .done (.ok current)
    else match setting.migrator.validateMigrationPath current target with
      | .error status => .done (.error status)
      | .ok _ => .locking (.migrate current) target

def acquire (call : Nat) (purpose : Purpose) (target : Nat) (s : State) : State :=
  match s.storage.put setting.limits setting.lockKey (purpose.migrationLockValue target)
      .insertOnly with
  | .ok storage =>
    { s.moveTo call (match purpose with
        | .initial => .looking target none
        | _ => .applying purpose purpose.start target) with storage := storage }
  | .error status =>
    s.moveTo call (.done (.error
      (if status.code = .alreadyExists then
        .unavailable (lit "storage migration lock is already held")
      else status)))

def look (call : Nat) (target : Nat) (cursor : Option StorageKey) (s : State) : State :=
  match s.storage.list setting.limits
      { scope := [], keyPrefix := [], limit := 1000, cursor := cursor } with
  | .error status => s.moveTo call (.failing status)
  | .ok page =>
    if page.items.any fun item => item.1 ≠ setting.versionKey && item.1 ≠ setting.lockKey then
      s.moveTo call (.failing (.failedPrecondition
        (lit "storage schema version is missing for non-empty storage; use legacy migration mode")))
    else match page.nextCursor with
      | none => s.moveTo call (.initializing target)
      | some cursor => s.moveTo call (.looking target (some cursor))

def write (call : Nat) (version : Nat) (next : Point) (failed : Status → Point) (s : State) :
    State :=
  match writeStorageSchemaVersion setting.policy setting.limits setting.versionKey version
      s.storage with
  | .error status => s.moveTo call (failed status)
  | .ok storage => { s.moveTo call next with storage := storage }

/-- One round of the loop over the migrations, up to the callback. -/
def applyNext (call : Nat) (purpose : Purpose) (current target : Nat) (s : State) : State :=
  if current < target then
    match setting.migrator.findMigration current target with
    | none =>
      s.moveTo call (.failing (.failedPrecondition (lit "missing storage migration")))
    | some migration =>
      { s.moveTo call (.writing purpose migration target) with
        storage := migration.apply s.storage
        applied := s.applied ++ [migration] }
  else s.moveTo call (.releasing (purpose.result current target))

def goOn (call : Nat) (s : State) : Option State :=
  match s.point call with
  | .reading mode target =>
    match s.stored setting with
    | .error status => some (s.moveTo call (.done (.error status)))
    | .ok stored => some (s.moveTo call (plan setting mode target stored))
  | .locking purpose target => some (s.acquire setting call purpose target)
  | .looking target cursor => some (s.look setting call target cursor)
  | .initializing target =>
    some (s.write setting call target (.releasing target) fun status => .failing status)
  | .applying purpose current target => some (s.applyNext setting call purpose current target)
  | .writing purpose migration target =>
    -- a version that cannot be written leaves the lock where it is
    some (s.write setting call migration.toVersion
      (.applying purpose migration.toVersion target) fun status => .done (.error status))
  | .releasing result =>
    match s.storage.remove setting.limits setting.lockKey with
    | .error status => some (s.moveTo call (.failing status))
    | .ok storage => some { s.moveTo call (.done (.ok result)) with storage := storage }
  | .failing status =>
    match s.storage.remove setting.limits setting.lockKey with
    | .error _ => some (s.moveTo call (.done (.error status)))
    | .ok storage => some { s.moveTo call (.done (.error status)) with storage := storage }
  | _ => none

def step (move : Move) (s : State) : Option State :=
  match move with
  | .begin call options =>
    match s.point call with
    | .idle =>
      match checkOptions setting options with
      | .error status => some (s.moveTo call (.done (.error status)))
      | .ok target => some (s.moveTo call (.reading options.missingVersionMode target))
    | _ => none
  | .goOn call => s.goOn setting call
  | .touch key value =>
    if key = setting.versionKey ∨ key = setting.lockKey then none
    else match value with
      | none => some { s with storage := s.storage.erase key }
      | some value => some { s with storage := s.storage.set key value }

end State

def run (setting : Setting) (storage : MemoryStorage) (moves : List Move) : Option State :=
  Interleaving.run (State.step setting) moves { storage := storage }

/-- A call that gets the lock finds the version as it has read it. -/
def UpToDate (setting : Setting) (move : Move) (s : State) : Prop :=
  match move with
  | .goOn call =>
    match s.point call with
    | .locking purpose _ =>
      s.storage.find setting.lockKey = none → s.stored setting = .ok purpose.stored
    | _ => True
  | _ => True

instance (setting : Setting) (move : Move) (s : State) : Decidable (UpToDate setting move s) := by
  unfold UpToDate
  split
  · split <;> infer_instance
  · infer_instance

def UpToDateRun (setting : Setting) (storage : MemoryStorage) (moves : List Move) : Prop :=
  Interleaving.Obeys (State.step setting) (UpToDate setting) moves { storage := storage }

instance (setting : Setting) (storage : MemoryStorage) (moves : List Move) :
    Decidable (UpToDateRun setting storage moves) :=
  inferInstanceAs (Decidable (Interleaving.Obeys _ _ _ _))

/-! ## 2. The holder of the lock -/

section Invariant

variable {setting : Setting} {s s' : State} {call : Nat}

def Point.holds : Point → Bool
  | .looking _ _ | .initializing _ | .applying _ _ _ | .writing _ _ _ | .releasing _
  | .failing _ => true
  | _ => false

def Point.begun : Point → Bool
  | .idle | .done _ => false
  | _ => true

/-- The version the storage stands at; it counts as zero if there is none. -/
def StandsAt (setting : Setting) (s : State) (version : Nat) : Prop :=
  ∃ stored, s.stored setting = .ok stored ∧ stored.getD 0 = version

/-- The callbacks that were run have led to the version of the storage. -/
def Settled (setting : Setting) (s : State) : Prop :=
  s.applied = [] ∨ ∃ version, StandsAt setting s version ∧
    ∀ migration ∈ s.applied, migration.toVersion ≤ version

def Knows (setting : Setting) (s : State) : Point → Prop
  | .looking _ _ | .initializing _ => s.stored setting = .ok none ∧ Settled setting s
  | .applying _ current _ => StandsAt setting s current ∧ Settled setting s
  | .writing _ migration _ =>
    StandsAt setting s migration.fromVersion ∧ ∃ earlier, s.applied = earlier ++ [migration] ∧
        ∀ other ∈ earlier, other.toVersion ≤ migration.fromVersion
  | _ => Settled setting s

inductive Locked (setting : Setting) (s : State) : Prop where
  | free (absent : s.storage.find setting.lockKey = none)
      (nobody : ∀ call, (s.point call).holds = false) (settled : Settled setting s)
  | stranded (present : s.storage.find setting.lockKey ≠ none)
      (nobody : ∀ call, (s.point call).holds = false)
  | held {call : Nat} (present : s.storage.find setting.lockKey ≠ none)
      (holds : (s.point call).holds = true)
      (alone : ∀ other, other ≠ call → (s.point other).holds = false)
      (knows : Knows setting s (s.point call))

structure Guarded (setting : Setting) (s : State) : Prop where
  apart : ∀ call, (s.point call).begun = true → setting.versionKey ≠ setting.lockKey
  locked : Locked setting s
  inOrder : s.applied.Pairwise fun earlier later => earlier.toVersion ≤ later.fromVersion
  registered : ∀ migration ∈ s.applied, migration ∈ setting.migrator.migrations

theorem guarded_start (setting : Setting) (storage : MemoryStorage) :
    Guarded setting { storage := storage } where
  apart _ h := nomatch h
  locked := by
    by_cases hlock : storage.find setting.lockKey = none
    · exact .free hlock (fun _ => rfl) (.inl rfl)
    · exact .stranded hlock fun _ => rfl
  inOrder := .nil
  registered _ h := nomatch h

def Rises (setting : Setting) (s s' : State) : Prop :=
  ∀ version, s.stored setting = .ok (some version) →
    ∃ version', s'.stored setting = .ok (some version') ∧ version ≤ version'

theorem rises_of_eq (h : s'.stored setting = s.stored setting) : Rises setting s s' :=
  fun version hversion => ⟨version, h.trans hversion, Nat.le_refl version⟩

variable {version target : Nat} {point next : Point} {purpose : Purpose} {storage : MemoryStorage}

theorem StandsAt.unique {other : Nat} (h : StandsAt setting s version)
    (h' : StandsAt setting s other) : version = other := by
  obtain ⟨stored, hstored, rfl⟩ := h
  obtain ⟨stored', hstored', rfl⟩ := h'
  rw [hstored] at hstored'
  cases hstored'; rfl

theorem StandsAt.congr (h : StandsAt setting s version)
    (hstored : s'.stored setting = s.stored setting) : StandsAt setting s' version := by
  obtain ⟨stored, hread, rfl⟩ := h
  exact ⟨stored, hstored.trans hread, rfl⟩

theorem Settled.congr (h : Settled setting s) (hstored : s'.stored setting = s.stored setting)
    (happlied : s'.applied = s.applied) : Settled setting s' := by
  rcases h with hnone | ⟨version, hstands, hbound⟩
  · exact .inl (happlied.trans hnone)
  · exact .inr ⟨version, hstands.congr hstored, happlied ▸ hbound⟩

theorem Settled.le (h : Settled setting s) (hstands : StandsAt setting s version) :
    ∀ migration ∈ s.applied, migration.toVersion ≤ version := by
  rcases h with hnone | ⟨other, hother, hbound⟩
  · rw [hnone]; exact List.forall_mem_nil _
  · rw [hstands.unique hother]; exact hbound

theorem Knows.congr (h : Knows setting s point) (hstored : s'.stored setting = s.stored setting)
    (happlied : s'.applied = s.applied) : Knows setting s' point := by
  cases point with
  | looking | initializing => exact ⟨hstored.trans h.1, h.2.congr hstored happlied⟩
  | applying => exact ⟨h.1.congr hstored, h.2.congr hstored happlied⟩
  | writing =>
    obtain ⟨hstands, earlier, heq, hbound⟩ := h
    exact ⟨hstands.congr hstored, earlier, happlied.trans heq, hbound⟩
  | _ => exact Settled.congr h hstored happlied

theorem Locked.congr (h : Locked setting s) (hstored : s'.stored setting = s.stored setting)
    (hlock : s'.storage.find setting.lockKey = s.storage.find setting.lockKey)
    (happlied : s'.applied = s.applied)
    (hpoint : ∀ call, s'.point call = s.point call ∨
      (s'.point call).holds = false ∧ (s.point call).holds = false) : Locked setting s' := by
  have hholds : ∀ call, (s'.point call).holds = (s.point call).holds := by
    intro call
    rcases hpoint call with hsame | ⟨hafter, hbefore⟩
    · rw [hsame]
    · rw [hafter, hbefore]
  cases h with
  | free absent nobody settled =>
    exact .free (hlock.trans absent) (fun call => (hholds call).trans (nobody call))
      (settled.congr hstored happlied)
  | stranded present nobody =>
    exact .stranded (hlock ▸ present) fun call => (hholds call).trans (nobody call)
  | @held call present holds alone knows =>
    have hsame : s'.point call = s.point call := by
      refine (hpoint call).resolve_right fun hnot => ?_
      rw [holds] at hnot; cases hnot.2
    refine .held (hlock ▸ present) ((hholds call).trans holds)
      (fun other hother => (hholds other).trans (alone other hother)) ?_
    rw [hsame]; exact knows.congr hstored happlied

theorem Locked.of_holds (h : Locked setting s) (hholds : (s.point call).holds = true) :
    s.storage.find setting.lockKey ≠ none ∧
      (∀ other, other ≠ call → (s.point other).holds = false) ∧
      Knows setting s (s.point call) := by
  cases h with
  | free absent nobody | stranded present nobody =>
    rw [nobody call] at hholds; cases hholds
  | @held holder present holds alone knows =>
    have hsame : call = holder := by
      by_contra hne
      rw [alone call hne] at hholds; cases hholds
    subst hsame; exact ⟨present, alone, knows⟩

theorem locked_of_keep (hpoint : s'.point = update s.point call next)
    (hpresent : s'.storage.find setting.lockKey ≠ none) (hholds : next.holds = true)
    (halone : ∀ other, other ≠ call → (s.point other).holds = false)
    (hknows : Knows setting s' next) : Locked setting s' := by
  have hself : s'.point call = next := by rw [hpoint, update_self]
  refine .held hpresent (hself ▸ hholds) (fun other hother => ?_) (hself ▸ hknows)
  rw [hpoint, update_of_ne hother]; exact halone other hother

theorem nobody_of_leave (hpoint : s'.point = update s.point call next)
    (hholds : next.holds = false) (halone : ∀ other, other ≠ call → (s.point other).holds = false)
    (other : Nat) : (s'.point other).holds = false := by
  rw [hpoint]
  by_cases hother : other = call
  · subst hother; rwa [update_self]
  · rw [update_of_ne hother]; exact halone other hother

theorem stored_congr (h : s'.storage.find setting.versionKey = s.storage.find setting.versionKey) :
    s'.stored setting = s.stored setting :=
  readStorageSchemaVersion_congr h

/-- A guarded state and a version that did not fall: what every move leads to. -/
structure Leads (setting : Setting) (s s' : State) : Prop where
  locked : Locked setting s'
  inOrder : s'.applied.Pairwise fun earlier later => earlier.toVersion ≤ later.fromVersion
  registered : ∀ migration ∈ s'.applied, migration ∈ setting.migrator.migrations
  rises : Rises setting s s'

theorem Guarded.leads (h : Guarded setting s) (hlocked : Locked setting s')
    (happlied : s'.applied = s.applied) (hrises : Rises setting s s') : Leads setting s s' where
  locked := hlocked
  inOrder := happlied ▸ h.inOrder
  registered := happlied ▸ h.registered
  rises := hrises

theorem Guarded.moveTo (h : Guarded setting s) (hbefore : (s.point call).holds = false)
    (hafter : next.holds = false) : Leads setting s (s.moveTo call next) := by
  refine h.leads (h.locked.congr rfl rfl rfl fun other => ?_) rfl (rises_of_eq rfl)
  change update s.point call next other = _ ∨ (update s.point call next other).holds = false ∧ _
  by_cases hother : other = call
  · subst hother
    rw [update_self]; exact .inr ⟨hafter, hbefore⟩
  · rw [update_of_ne hother]; exact .inl rfl

section

variable (h : Guarded setting s) (hpoint : s.point call = point)

include h hpoint

theorem Guarded.holder (hholds : point.holds = true) :
    s.storage.find setting.lockKey ≠ none ∧
      (∀ other, other ≠ call → (s.point other).holds = false) ∧ Knows setting s point := by
  subst hpoint; exact h.locked.of_holds hholds

theorem Guarded.apart_of_holds (hholds : point.holds = true) :
    setting.versionKey ≠ setting.lockKey := by
  refine h.apart call ?_
  rw [hpoint]
  cases point <;> first | rfl | cases hholds

theorem Guarded.keep (hbefore : point.holds = true) (hafter : next.holds = true)
    (hknows : Knows setting s next) : Leads setting s (s.moveTo call next) := by
  obtain ⟨hpresent, halone, -⟩ := h.holder hpoint hbefore
  exact h.leads (locked_of_keep rfl hpresent hafter halone (hknows.congr rfl rfl)) rfl
    (rises_of_eq rfl)

end

theorem Guarded.acquire (h : Guarded setting s) (hpoint : s.point call = .locking purpose target)
    (hfresh : s.storage.find setting.lockKey = none → s.stored setting = .ok purpose.stored) :
    Leads setting s (s.acquire setting call purpose target) := by
  have hnot : (s.point call).holds = false := by rw [hpoint]; rfl
  have hapart : setting.versionKey ≠ setting.lockKey := h.apart call (by rw [hpoint]; rfl)
  unfold State.acquire
  split
  · rename_i storage hput
    obtain ⟨-, rfl⟩ := put_ok hput
    have habsent : s.storage.find setting.lockKey = none := absent_of_insert hput
    -- nobody has the lock, so the storage is settled
    cases h.locked with
    | stranded present | held present => exact absurd habsent present
    | free absent nobody settled =>
      have hread := hfresh habsent
      let s' : State := { s with
        storage := s.storage.set setting.lockKey (purpose.migrationLockValue target) }
      have hstored : s'.stored setting = s.stored setting :=
        stored_congr (find_set_ne hapart.symm _ _)
      have hpresent : s'.storage.find setting.lockKey ≠ none := by
        rw [find_set_self]; exact nofun
      have hsettled : Settled setting s' := settled.congr hstored rfl
      have hread' : s'.stored setting = .ok purpose.stored := hstored.trans hread
      refine h.leads ?_ rfl (rises_of_eq hstored)
      cases purpose with
      | initial =>
        exact locked_of_keep rfl hpresent rfl (fun other _ => nobody other) ⟨hread', hsettled⟩
      | legacy =>
        exact locked_of_keep rfl hpresent rfl (fun other _ => nobody other)
          ⟨⟨none, hread', rfl⟩, hsettled⟩
      | migrate current =>
        exact locked_of_keep rfl hpresent rfl (fun other _ => nobody other)
          ⟨⟨some current, hread', rfl⟩, hsettled⟩
  · exact h.moveTo hnot rfl

theorem Guarded.look (h : Guarded setting s) {cursor : Option StorageKey}
    (hpoint : s.point call = .looking target cursor) :
    Leads setting s (s.look setting call target cursor) := by
  obtain ⟨-, -, hknows⟩ := h.holder hpoint rfl
  unfold State.look
  split
  · exact h.keep hpoint rfl rfl hknows.2
  · split_ifs
    · exact h.keep hpoint rfl rfl hknows.2
    · split
      · exact h.keep hpoint rfl rfl hknows
      · exact h.keep hpoint rfl rfl hknows

theorem Guarded.wrote (h : Guarded setting s) {version : Nat} {point next : Point}
    {storage : MemoryStorage} (hpoint : s.point call = point) (hbefore : point.holds = true)
    (hafter : next.holds = true)
    (hwrite : writeStorageSchemaVersion setting.policy setting.limits setting.versionKey version
      s.storage = .ok storage)
    (hbelow : ∀ before, s.stored setting = .ok (some before) → before ≤ version)
    (hknows : ∀ s' : State, s'.stored setting = .ok (some version) → s'.applied = s.applied →
      Knows setting s' next) :
    Leads setting s { s.moveTo call next with storage := storage } := by
  obtain ⟨hpresent, halone, -⟩ := h.holder hpoint hbefore
  have hapart := h.apart_of_holds hpoint hbefore
  obtain ⟨hread, rfl⟩ := read_of_write hwrite
  have hlock : (s.storage.set setting.versionKey (decimal version)).find setting.lockKey =
      s.storage.find setting.lockKey := find_set_ne hapart _ _
  refine h.leads (locked_of_keep rfl (hlock ▸ hpresent) hafter halone (hknows _ hread rfl)) rfl ?_
  intro before hbefore; exact ⟨version, hread, hbelow before hbefore⟩

section

variable (h : Guarded setting s)

include h

theorem Guarded.setVersion (hpoint : s.point call = .initializing target) :
    Leads setting s
      (s.write setting call target (.releasing target) fun status => .failing status) := by
  obtain ⟨-, -, hknows⟩ := h.holder hpoint rfl
  obtain ⟨hnone, hsettled⟩ := hknows
  unfold State.write
  split
  · exact h.keep hpoint rfl rfl hsettled
  · rename_i storage hwrite
    refine h.wrote hpoint rfl rfl hwrite (fun before hbefore => ?_) fun s' hread happlied => ?_
    · rw [hnone] at hbefore; cases hbefore
    · have hbound := hsettled.le ⟨none, hnone, rfl⟩
      refine .inr ⟨target, ⟨some target, hread, rfl⟩, fun migration hmigration => ?_⟩
      rw [happlied] at hmigration
      exact Nat.le_trans (hbound migration hmigration) (Nat.zero_le target)

theorem Guarded.applyNext {current : Nat}
    (hpoint : s.point call = .applying purpose current target) :
    Leads setting s (s.applyNext setting call purpose current target) := by
  obtain ⟨hpresent, halone, hknows⟩ := h.holder hpoint rfl
  obtain ⟨hstands, hsettled⟩ := hknows
  unfold State.applyNext
  split_ifs
  · split
    · exact h.keep hpoint rfl rfl hsettled
    · rename_i migration hfound
      obtain ⟨hmem, rfl, -, -⟩ := StorageMigrator.findMigration_eq_some hfound
      obtain ⟨hversion, hlock⟩ := setting.leaves migration hmem s.storage
      have hbound := hsettled.le hstands
      have hstored : State.stored setting
          { s with storage := migration.apply s.storage } = s.stored setting :=
        stored_congr hversion
      refine ⟨locked_of_keep rfl (hlock ▸ hpresent) rfl halone ?_, ?_, ?_, rises_of_eq hstored⟩
      · exact ⟨hstands.congr hstored, s.applied, rfl, hbound⟩
      · refine pairwise_append.mpr ⟨h.inOrder, pairwise_singleton .., ?_⟩
        intro earlier hearlier later hlater
        rw [mem_singleton.mp hlater]; exact hbound earlier hearlier
      · intro other hother
        rcases mem_append.mp hother with hother | hother
        · exact h.registered other hother
        · rw [mem_singleton.mp hother]; exact hmem
  · exact h.keep hpoint rfl rfl hsettled

theorem Guarded.write {migration : StorageMigration}
    (hpoint : s.point call = .writing purpose migration target) :
    Leads setting s (s.write setting call migration.toVersion
      (.applying purpose migration.toVersion target) fun status => .done (.error status)) := by
  obtain ⟨hpresent, halone, hknows⟩ := h.holder hpoint rfl
  obtain ⟨hstands, earlier, happlied, hbound⟩ := hknows
  have hraises : migration.fromVersion < migration.toVersion :=
    setting.migrator.increases migration (h.registered migration (by rw [happlied]; simp))
  unfold State.write
  split
  · -- the lock stays behind
    exact h.leads (.stranded hpresent (nobody_of_leave rfl rfl halone)) rfl (rises_of_eq rfl)
  · rename_i storage hwrite
    refine h.wrote hpoint rfl rfl hwrite (fun before hbefore => ?_) fun s' hread happlied' => ?_
    · have hsame := hstands.unique ⟨some before, hbefore, rfl⟩
      rw [Option.getD_some] at hsame; omega
    · have hstands' : StandsAt setting s' migration.toVersion := ⟨some _, hread, rfl⟩
      refine ⟨hstands', .inr ⟨migration.toVersion, hstands', fun other hother => ?_⟩⟩
      rw [happlied', happlied] at hother
      rcases mem_append.mp hother with hother | hother
      · have := hbound other hother; omega
      · rw [mem_singleton.mp hother]

theorem Guarded.release {result : Result Nat} (hpoint : s.point call = point)
    (hbefore : point.holds = true) (hsettled : Settled setting s)
    (hremove : s.storage.remove setting.limits setting.lockKey = .ok storage) :
    Leads setting s { s.moveTo call (.done result) with storage := storage } := by
  obtain ⟨-, halone, -⟩ := h.holder hpoint hbefore
  have hapart := h.apart_of_holds hpoint hbefore
  obtain ⟨-, rfl⟩ := remove_ok hremove
  have hstored : State.stored setting
      { s with storage := s.storage.erase setting.lockKey } = s.stored setting :=
    stored_congr (find_erase_ne hapart.symm _)
  exact h.leads (.free (find_erase_self ..) (nobody_of_leave rfl rfl halone)
    (hsettled.congr hstored rfl)) rfl (rises_of_eq hstored)

theorem Guarded.goOn (hfresh : UpToDate setting (.goOn call) s)
    (hstep : s.goOn setting call = some s') : Leads setting s s' := by
  unfold State.goOn at hstep
  unfold UpToDate at hfresh
  cases hpoint : s.point call <;> simp only [hpoint] at hstep hfresh
  case idle | done => cases hstep
  case locking =>
    cases hstep; exact h.acquire hpoint hfresh
  case looking =>
    cases hstep; exact h.look hpoint
  case initializing =>
    cases hstep; exact h.setVersion hpoint
  case applying =>
    cases hstep; exact h.applyNext hpoint
  case writing =>
    cases hstep; exact h.write hpoint
  case reading mode target =>
    have hnot : (s.point call).holds = false := by rw [hpoint]; rfl
    split at hstep <;> cases hstep
    · exact h.moveTo hnot rfl
    · refine h.moveTo hnot ?_
      unfold State.plan
      split
      · split
        · rfl
        · split <;> rfl
      · split_ifs
        · rfl
        · rfl
        · split <;> rfl
  case releasing =>
    obtain ⟨-, -, hknows⟩ := h.holder hpoint rfl
    split at hstep <;> cases hstep
    · exact h.keep hpoint rfl rfl hknows
    · exact h.release hpoint rfl hknows ‹_›
  case failing =>
    obtain ⟨hpresent, halone, hknows⟩ := h.holder hpoint rfl
    split at hstep <;> cases hstep
    · exact h.leads (.stranded hpresent (nobody_of_leave rfl rfl halone)) rfl (rises_of_eq rfl)
    · exact h.release hpoint rfl hknows ‹_›

end

theorem apart_of_checkOptions {options : Options}
    (h : State.checkOptions setting options = .ok target) :
    setting.versionKey ≠ setting.lockKey := by
  obtain ⟨⟨⟩, -, h⟩ := of_bind h
  obtain ⟨⟨⟩, -, h⟩ := of_bind h
  obtain ⟨⟨⟩, -, h⟩ := of_bind h
  obtain ⟨⟨⟩, -, h⟩ := of_bind h
  obtain ⟨hapart, -⟩ := of_require h
  exact of_decide_eq_true hapart

theorem Guarded.begin (h : Guarded setting s) {options : Options}
    (hstep : s.step setting (.begin call options) = some s') :
    Guarded setting s' ∧ Rises setting s s' := by
  simp only [State.step] at hstep
  cases hpoint : s.point call with
  | idle =>
    have hnot : (s.point call).holds = false := by rw [hpoint]; rfl
    simp only [hpoint] at hstep
    split at hstep
    · rename_i status hcheck
      cases hstep
      have hleads : Leads setting s (s.moveTo call (.done (.error status))) :=
        h.moveTo hnot rfl
      refine ⟨⟨fun other hother => ?_, hleads.locked, hleads.inOrder, hleads.registered⟩,
        hleads.rises⟩
      change (update s.point call (.done (.error status)) other).begun = true at hother
      by_cases hsame : other = call
      · subst hsame
        rw [update_self] at hother; cases hother
      · rw [update_of_ne hsame] at hother; exact h.apart other hother
    · rename_i target hcheck
      cases hstep
      have hleads : Leads setting s
          (s.moveTo call (.reading options.missingVersionMode target)) := h.moveTo hnot rfl
      exact ⟨⟨fun _ _ => apart_of_checkOptions hcheck, hleads.locked, hleads.inOrder,
        hleads.registered⟩, hleads.rises⟩
  | _ => simp only [hpoint] at hstep; cases hstep

theorem Guarded.touch (h : Guarded setting s)
    (hversion : storage.find setting.versionKey = s.storage.find setting.versionKey)
    (hlock : storage.find setting.lockKey = s.storage.find setting.lockKey) :
    Guarded setting { s with storage := storage } ∧
      Rises setting s { s with storage := storage } := by
  have hstored : State.stored setting { s with storage := storage } = s.stored setting :=
    stored_congr hversion
  exact ⟨⟨h.apart, h.locked.congr hstored hlock rfl fun _ => .inl rfl, h.inOrder, h.registered⟩,
    rises_of_eq hstored⟩

theorem Guarded.step {move : Move} (h : Guarded setting s) (hfresh : UpToDate setting move s)
    (hstep : s.step setting move = some s') : Guarded setting s' ∧ Rises setting s s' := by
  cases move with
  | begin => exact h.begin hstep
  | goOn call =>
    have hleads := h.goOn hfresh hstep
    -- only a call past its checks goes on
    have hbegun : (s.point call).begun = true := by
      cases hpoint : s.point call
      case idle | done => simp only [State.step, State.goOn, hpoint] at hstep; cases hstep
      all_goals rfl
    exact ⟨⟨fun _ _ => h.apart call hbegun, hleads.locked, hleads.inOrder, hleads.registered⟩,
      hleads.rises⟩
  | touch key value =>
    simp only [State.step] at hstep
    split_ifs at hstep with hkey
    obtain ⟨hversion, hlock⟩ := not_or.mp hkey
    cases value with
    | none =>
      cases hstep
      exact h.touch (find_erase_ne hversion _) (find_erase_ne hlock _)
    | some =>
      cases hstep
      exact h.touch (find_set_ne hversion _ _) (find_set_ne hlock _ _)

theorem Rises.trans {s'' : State} (h : Rises setting s s') (h' : Rises setting s' s'') :
    Rises setting s s'' := by
  intro version hversion
  obtain ⟨middle, hmiddle, hle⟩ := h version hversion
  obtain ⟨last, hlast, hle'⟩ := h' middle hmiddle
  exact ⟨last, hlast, Nat.le_trans hle hle'⟩

theorem Guarded.run {moves : List Move} (h : Guarded setting s)
    (hfresh : Interleaving.Obeys (State.step setting) (UpToDate setting) moves s)
    (hrun : Interleaving.run (State.step setting) moves s = some s') :
    Guarded setting s' ∧ Rises setting s s' :=
  hfresh.invariant (P := fun s' => Guarded setting s' ∧ Rises setting s s')
    (fun hs hallowed hstep =>
      have hnext := hs.1.step hallowed hstep
      ⟨hnext.1, hs.2.trans hnext.2⟩)
    ⟨h, rises_of_eq rfl⟩ hrun

/-- Callbacks that lead from one version to a later one were run in the order of their versions, and
    none of them twice. -/
theorem Guarded.versions_increasing (h : Guarded setting s) :
    (s.applied.map StorageMigration.fromVersion).Pairwise (· < ·) := by
  refine pairwise_map.mpr (Pairwise.imp_of_mem ?_ h.inOrder)
  intro earlier later hearlier _ hle
  have hraises := setting.migrator.increases earlier (h.registered earlier hearlier)
  exact Nat.lt_of_lt_of_le hraises hle

end Invariant

/-! ## 3. Whole runs -/

/-- If every call that gets the lock finds the version as it has read it, the callbacks are run in
    the order of their versions, none of them twice, and the version never falls. -/
theorem migrations_run_once (setting : Setting) (storage : MemoryStorage) (moves more : List Move)
    (s s' : State) (hfresh : UpToDateRun setting storage (moves ++ more))
    (hrun : run setting storage moves = some s)
    (hmore : Interleaving.run (State.step setting) more s = some s') :
    (s'.applied.map StorageMigration.fromVersion).Pairwise (· < ·) ∧
      (∀ migration ∈ s'.applied, migration ∈ setting.migrator.migrations) ∧
      Rises setting s s' := by
  obtain ⟨hfirst, hsecond⟩ := Interleaving.obeys_append hfresh hrun
  obtain ⟨hs, -⟩ := (guarded_start setting storage).run hfirst hrun
  obtain ⟨hs', hrises⟩ := hs.run hsecond hmore
  exact ⟨hs'.versions_increasing, hs'.registered, hrises⟩

/-- A migrator with the one migration that the policy has room for; the callback marks the
    storage. -/
def markingMigration : StorageMigration where
  fromVersion := 0
  toVersion := 1
  name := lit "mark"
  migrate := some (MemoryStorage.set ⟨lit "app", lit "marked"⟩ (lit "yes"))

def markingSetting : Setting where
  policy := storageSchemaVersionPolicy
  migrator := ⟨1, [markingMigration], by simp [markingMigration]⟩
  leaves := by
    intro migration hmigration storage
    rw [List.mem_singleton.mp hmigration]
    exact ⟨MemoryStorage.find_set_ne (by decide) _ _, MemoryStorage.find_set_ne (by decide) _ _⟩

def oldStorage : MemoryStorage :=
  MemoryStorage.empty.set ⟨lit "__lc_system", lit "storage_schema_version"⟩ (decimal 0)

/-- A call migrates; another one comes in its way, is refused, and tries again afterwards. -/
def oneAfterTheOther : List Move :=
  [.begin 0 {}, .goOn 0, .begin 1 {}, .goOn 1, .goOn 0, .goOn 1, .goOn 0, .goOn 0, .goOn 0]

def afterThem : List Move := [.goOn 0, .begin 2 {}, .goOn 2]

theorem migrations_run_once_oneAfterTheOther :
    ∃ s s', UpToDateRun markingSetting oldStorage (oneAfterTheOther ++ afterThem) ∧
      run markingSetting oldStorage oneAfterTheOther = some s ∧
      Interleaving.run (State.step markingSetting) afterThem s = some s' ∧
      s'.applied.map StorageMigration.fromVersion = [0] ∧
      (s'.applied.map StorageMigration.fromVersion).Pairwise (· < ·) ∧
      Rises markingSetting s s' := by
  have hruns : ∃ s s', run markingSetting oldStorage oneAfterTheOther = some s ∧
      Interleaving.run (State.step markingSetting) afterThem s = some s' ∧
      s'.applied.map StorageMigration.fromVersion = [0] := ⟨_, _, rfl, rfl, rfl⟩
  obtain ⟨s, s', hrun, hmore, happlied⟩ := hruns
  have hfresh : UpToDateRun markingSetting oldStorage (oneAfterTheOther ++ afterThem) := by
    decide +kernel
  obtain ⟨horder, -, hrises⟩ :=
    migrations_run_once markingSetting oldStorage _ _ s s' hfresh hrun hmore
  exact ⟨s, s', hfresh, hrun, hmore, happlied, horder, hrises⟩

/-- Two calls read version 0; the second one gets the lock after the first one is through. -/
def lateSecond : List Move :=
  [.begin 0 {}, .goOn 0, .begin 1 {}, .goOn 1, .goOn 0, .goOn 0, .goOn 0, .goOn 0, .goOn 0,
    .goOn 1, .goOn 1]

/-- Two calls find an empty storage; the one that asks for version 0 writes after the one that asks
    for version 1. -/
def lateLower : List Move :=
  [.begin 0 {}, .goOn 0, .begin 1 { targetVersion := some 0 }, .goOn 1,
    .goOn 0, .goOn 0, .goOn 0, .goOn 0]

/-- The callback is run twice, and the version falls from 1 to 0. -/
theorem callback_run_twice :
    (∃ s, run markingSetting oldStorage lateSecond = some s ∧
      s.applied.map StorageMigration.fromVersion = [0, 0]) ∧
    ∃ s s', run markingSetting MemoryStorage.empty lateLower = some s ∧
      Interleaving.run (State.step markingSetting) [.goOn 1, .goOn 1, .goOn 1] s = some s' ∧
      s.stored markingSetting = .ok (some 1) ∧ s'.stored markingSetting = .ok (some 0) :=
  ⟨⟨_, rfl, rfl⟩, _, _, rfl, rfl, rfl, rfl⟩

end Migration

end LangGraph
