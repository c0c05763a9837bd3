import CalibrationLedger.Service

set_option autoImplicit false

-- The rows of an audit package and what each transaction decides on a locked one.
namespace CalibrationLedger

open JsonText Digest

inductive PackageStatus where
  | pending
  | building
  | ready
  | failed
  | cancelling
  | cancelled
deriving DecidableEq

def PackageStatus.name : PackageStatus → String
  | .pending => "pending"
  | .building => "building"
  | .ready => "ready"
  | .failed => "failed"
  | .cancelling => "cancelling"
  | .cancelled => "cancelled"

-- What build_once returns: a status, or SUPERSEDED.
inductive BuildResult where
  | status (status : PackageStatus)
  | superseded
deriving DecidableEq

structure AuditPackage where
  id : Nat
  packageId : Uuid
  idempotencyKey : String
  requestFingerprint : String
  instrumentId : String
  checkpointId : Uuid
  status : PackageStatus
  attemptCount : Nat
  leaseOwner : Option String
  leaseExpiresAt : Option Instant
  failureCode : Option String
  failureReason : Option Text
  artifactSha256 : Option String
  artifactSizeBytes : Option Nat
  eventCount : Option Nat
  createdAt : Instant
  updatedAt : Instant
  readyAt : Option Instant
  failedAt : Option Instant
  cancelRequestedAt : Option Instant
  cancelledAt : Option Instant
deriving DecidableEq

structure AuditPackageArtifact where
  packageId : Uuid
  zipContent : Bytes
  sha256 : String
  sizeBytes : Nat
  createdAt : Instant
deriving DecidableEq

-- The check constraint audit_package_state_shape.
def AuditPackage.stateShape (package : AuditPackage) : Bool :=
  match package.status with
  | .ready => package.readyAt.isSome && package.failureCode.isNone && package.failureReason.isNone &&
      package.artifactSha256.isSome && package.artifactSizeBytes.isSome && package.eventCount.isSome &&
      package.leaseOwner.isNone && package.leaseExpiresAt.isNone && package.cancelRequestedAt.isNone &&
      package.cancelledAt.isNone
  | .failed => package.failedAt.isSome && package.failureReason.isSome
  | .pending => package.leaseOwner.isNone && package.leaseExpiresAt.isNone && package.readyAt.isNone &&
      package.failedAt.isNone && package.failureCode.isNone && package.failureReason.isNone
  | .building => package.leaseOwner.isSome && package.leaseExpiresAt.isSome && package.readyAt.isNone &&
      package.failedAt.isNone && package.failureCode.isNone && package.failureReason.isNone &&
      package.cancelRequestedAt.isNone && package.cancelledAt.isNone
  | .cancelling => package.leaseOwner.isSome && package.leaseExpiresAt.isSome && package.readyAt.isNone &&
      package.failedAt.isNone && package.failureCode.isNone && package.failureReason.isNone &&
      package.cancelRequestedAt.isSome && package.cancelledAt.isNone
  | .cancelled => package.leaseOwner.isNone && package.leaseExpiresAt.isNone && package.readyAt.isNone &&
      package.failedAt.isNone && package.failureCode.isNone && package.failureReason.isNone &&
      package.artifactSha256.isNone && package.artifactSizeBytes.isNone && package.eventCount.isNone &&
      package.cancelRequestedAt.isSome && package.cancelledAt.isSome

-- lease_expires_at < moment; NULL compares to nothing.
def AuditPackage.expired (package : AuditPackage) (moment : Instant) : Bool :=
  match package.leaseExpiresAt with
  | some expires => decide (expires.micros < moment.micros)
  | none => false

def AuditPackage.eligible (moment : Instant) (package : AuditPackage) : Bool :=
  package.status = .pending || (package.status = .building && package.expired moment)

def AuditPackage.stale (moment : Instant) (package : AuditPackage) : Bool :=
  package.status = .cancelling && package.expired moment

-- moment + lease_duration, the duration in microseconds.
def Instant.plus (moment : Instant) (duration : Int) : Py Instant :=
  let shifted := (moment.micros : Int) + duration
  if bound : 0 ≤ shifted ∧ shifted < endOfTime then .ok ⟨shifted.toNat, by omega⟩ else .error .overflowError

def AuditPackage.claim (package : AuditPackage) (workerId : String) (moment expires : Instant) :
    AuditPackage :=
  { package with
    status := .building
    leaseOwner := some workerId
    leaseExpiresAt := some expires
    attemptCount := package.attemptCount + 1
    updatedAt := moment }

def AuditPackage.applyCancelled (package : AuditPackage) (now : Instant) : AuditPackage :=
  { package with
    status := .cancelled
    leaseOwner := none
    leaseExpiresAt := none
    cancelledAt := some now
    updatedAt := now }

structure BuiltArchive where
  content : Bytes
  sha256 : String
  sizeBytes : Nat
  manifest : Dict
  eventCount : Nat

def AuditPackage.complete (package : AuditPackage) (archive : BuiltArchive) (now : Instant) : AuditPackage :=
  { package with
    status := .ready
    artifactSha256 := some archive.sha256
    artifactSizeBytes := some archive.sizeBytes
    eventCount := some archive.eventCount
    leaseOwner := none
    leaseExpiresAt := none
    readyAt := some now
    updatedAt := now }

def AuditPackage.artifact (package : AuditPackage) (archive : BuiltArchive) (now : Instant) :
    AuditPackageArtifact where
  packageId := package.packageId
  zipContent := archive.content
  sha256 := archive.sha256
  sizeBytes := archive.sizeBytes
  createdAt := now

def maxFailureReason : Nat := 2000

def AuditPackage.fail (package : AuditPackage) (code : String) (reason : Text) (now : Instant) :
    AuditPackage :=
  { package with
    status := .failed
    failureCode := some code
    failureReason := some (reason.take maxFailureReason)
    leaseOwner := none
    leaseExpiresAt := none
    failedAt := some now
    updatedAt := now }

def AuditPackage.requeue (package : AuditPackage) (now : Instant) : AuditPackage :=
  { package with
    status := .pending
    failureCode := none
    failureReason := none
    failedAt := none
    leaseOwner := none
    leaseExpiresAt := none
    cancelRequestedAt := none
    cancelledAt := none
    updatedAt := now }

def AuditPackage.withdraw (package : AuditPackage) (now : Instant) : AuditPackage :=
  { package with
    status := .cancelled
    cancelRequestedAt := some now
    cancelledAt := some now
    updatedAt := now }

def AuditPackage.requestCancel (package : AuditPackage) (now : Instant) : AuditPackage :=
  { package with
    status := .cancelling
    cancelRequestedAt := some now
    updatedAt := now }

-- What a transaction answers, and what it writes of the row it holds.
structure Decision (α : Type) where
  reply : α
  write : Option AuditPackage := none
  artifact : Option AuditPackageArtifact := none

-- The transactions that end a build_once call. A missing row is answered FAILED.
def finalWrite (claimed : AuditPackage) (archive : BuiltArchive) (now : Instant) :
    Option AuditPackage → Decision BuildResult
  | none => { reply := .status .failed }
  | some package =>
      if package.status = .cancelling then
        { reply := .status .cancelled, write := some (package.applyCancelled now) }
      else if package.status = .cancelled then { reply := .superseded }
      else if package.status ≠ .building ∨ package.leaseOwner ≠ claimed.leaseOwner then
        { reply := .status package.status }
      else
        { reply := .status .ready, write := some (package.complete archive now),
          artifact := some (package.artifact archive now) }

def finishCancelled (claimed : AuditPackage) (now : Instant) : Option AuditPackage → Decision BuildResult
  | none => { reply := .status .failed }
  | some package =>
      if package.status = .cancelling ∧ package.leaseOwner = claimed.leaseOwner then
        { reply := .status .cancelled, write := some (package.applyCancelled now) }
      else if package.status = .cancelled then { reply := .superseded }
      else { reply := .status package.status }

def failOrCancel (claimed : AuditPackage) (code : String) (reason : Text) (now : Instant) :
    Option AuditPackage → Decision BuildResult
  | none => { reply := .status .failed }
  | some package =>
      if package.status = .cancelling then
        { reply := .status .cancelled, write := some (package.applyCancelled now) }
      else if package.status ≠ .building ∨ package.leaseOwner ≠ claimed.leaseOwner then
        { reply := .status package.status }
      else { reply := .status .failed, write := some (package.fail code reason now) }

def packageError (code message : String) (packageId : Uuid) (status : PackageStatus)
    (more : List (String × Json)) : PyError :=
  .ledger ⟨code, text message, 409,
    [("package_id", string packageId.toText), ("status", string status.name)] ++ more⟩

def requestRetry (packageId : Uuid) (now : Instant) : Option AuditPackage → Decision (Py AuditPackage)
  | none => { reply := .error (notFoundError "audit_package" packageId.toText) }
  | some package =>
      match package.status with
      | .failed => { reply := .ok (package.requeue now), write := some (package.requeue now) }
      | .cancelling => { reply := .error (packageError "AUDIT_PACKAGE_NOT_RETRYABLE"
          "a cancelling package cannot be retried; create a new package" packageId .cancelling
            [("retryable", .bool false)]) }
      | .cancelled => { reply := .error (packageError "AUDIT_PACKAGE_NOT_RETRYABLE"
          "a cancelled package cannot be retried; create a new package" packageId .cancelled
            [("retryable", .bool false)]) }
      | .pending => { reply := .error (packageError "AUDIT_PACKAGE_NOT_FAILED"
          "the package is already queued for export" packageId .pending []) }
      | .building => { reply := .error (packageError "AUDIT_PACKAGE_BUILDING"
          "the package is currently being built; retry after it settles" packageId .building []) }
      | .ready => { reply := .error (packageError "AUDIT_PACKAGE_ALREADY_READY"
          "a ready package cannot be retried" packageId .ready []) }

def cancelPackage (packageId : Uuid) (now : Instant) :
    Option AuditPackage → Decision (Py (AuditPackage × Bool))
  | none => { reply := .error (notFoundError "audit_package" packageId.toText) }
  | some package =>
      match package.status with
      | .pending => { reply := .ok (package.withdraw now, true), write := some (package.withdraw now) }
      | .building => {
          reply := .ok (package.requestCancel now, true)
          write := some (package.requestCancel now) }
      | .cancelling => { reply := .ok (package, false) }
      | .cancelled => { reply := .ok (package, false) }
      | .ready => { reply := .error (packageError "AUDIT_PACKAGE_ALREADY_READY"
          "the package finished and is ready for download; it cannot be cancelled" packageId .ready []) }
      | .failed => { reply := .error (packageError "AUDIT_PACKAGE_NOT_CANCELLABLE"
          "a failed package cannot be cancelled" packageId .failed []) }

end CalibrationLedger
