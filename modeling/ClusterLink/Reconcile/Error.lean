import ClusterLink.Store.Error
import ClusterLink.Time.Duration
import ClusterLink.Watch.Registry

/-! What goes wrong while an association is reconciled, and what stops the whole controller. -/

namespace ClusterLink

/-- Why the finalizers of an association were not brought up to date. -/
inductive FinalizerError where
  /-- A cleanup failed; its finalizer stays. -/
  | execution (name reason : String)
  /-- The list of finalizers could not be written. -/
  | store (cause : StoreError)
  deriving DecidableEq

def FinalizerError.message : FinalizerError → String
  | .execution name reason => "finalizer " ++ name ++ " failed: " ++ reason
  | .store cause => "updating finalizers: " ++ cause.message

/-- Why reconciling an association failed. -/
inductive ReconcileError where
  | store (cause : StoreError)
  | watch (cause : WatchError)
  | finalizer (cause : FinalizerError)
  /-- The secret exists and lacks the entry. -/
  | missingCredential (secret : Key) (entry : String)
  /-- The deadline passed and the work was dropped. -/
  | timeout (after : Duration)
  deriving DecidableEq

namespace ReconcileError

/-- Whether something is missing that is expected to come. -/
def isNotFound : ReconcileError → Bool
  | .store cause => cause.isNotFound
  | .missingCredential .. => true
  | _ => false

def message : ReconcileError → String
  | .store cause => cause.message
  | .watch cause => "dynamic watch: " ++ cause.message
  | .finalizer cause => cause.message
  | .missingCredential secret entry => "secret " ++ secret.text ++ " has no entry " ++ entry
  | .timeout after => "reconcile timed out after " ++ after.text

end ReconcileError

/-- Why the controller could not start or go on. -/
inductive ControllerError where
  | config (reason : String)
  | seed (reason : String)
  | storage (cause : StoreError)
  | io (reason : String)
  deriving DecidableEq

def ControllerError.message : ControllerError → String
  | .config reason => "Configuration error: " ++ reason
  | .seed reason => "Seed error: " ++ reason
  | .storage cause => "Storage error: " ++ cause.message
  | .io reason => "IO error: " ++ reason

end ClusterLink
