import ClusterLink.Json.Fields
import ClusterLink.Queue.Backoff

/-! The settings of the controller, of the store and of logging, with their defaults. -/

namespace ClusterLink

/-- How many associations are reconciled at once, how long each may take, and how retries after
errors are spaced. -/
structure ControllerSettings where
  maxConcurrentReconciles : UInt64 := 4
  reconcileTimeoutSecs : UInt64 := 30
  backoffBaseMs : UInt64 := 5
  backoffMaxSecs : UInt64 := 1000
  deriving DecidableEq

namespace ControllerSettings

instance : Inhabited ControllerSettings := ⟨{}⟩

/-- The longest time for one reconcile. -/
def timeout (s : ControllerSettings) : Duration := .ofSeconds s.reconcileTimeoutSecs.toNat

def backoff (s : ControllerSettings) : Backoff :=
  ⟨.ofMillis s.backoffBaseMs.toNat, .ofSeconds s.backoffMaxSecs.toNat⟩

def fieldNames : List String :=
  ["max_concurrent_reconciles", "reconcile_timeout_secs", "backoff_base_ms", "backoff_max_secs"]

def json (s : ControllerSettings) : Json :=
  .record [("max_concurrent_reconciles", .nat s.maxConcurrentReconciles.toNat),
    ("reconcile_timeout_secs", .nat s.reconcileTimeoutSecs.toNat),
    ("backoff_base_ms", .nat s.backoffBaseMs.toNat),
    ("backoff_max_secs", .nat s.backoffMaxSecs.toNat)]

def ofJson? (v : Json) : Option ControllerSettings := do
  let fields ← v.fields? fieldNames
  let d : ControllerSettings := {}
  return {
    maxConcurrentReconciles := ←
      Json.withDefault fields "max_concurrent_reconciles" d.maxConcurrentReconciles Json.uint64?
    reconcileTimeoutSecs := ←
      Json.withDefault fields "reconcile_timeout_secs" d.reconcileTimeoutSecs Json.uint64?
    backoffBaseMs := ← Json.withDefault fields "backoff_base_ms" d.backoffBaseMs Json.uint64?
    backoffMaxSecs := ← Json.withDefault fields "backoff_max_secs" d.backoffMaxSecs Json.uint64? }

end ControllerSettings

/-- How far behind a reader of the event log may fall. -/
structure StoreSettings where
  eventCapacity : UInt64 := 1024
  deriving DecidableEq

namespace StoreSettings

instance : Inhabited StoreSettings := ⟨{}⟩

def fieldNames : List String := ["event_capacity"]

def json (s : StoreSettings) : Json :=
  .record [("event_capacity", .nat s.eventCapacity.toNat)]

def ofJson? (v : Json) : Option StoreSettings := do
  let fields ← v.fields? fieldNames
  let d : StoreSettings := {}
  return ⟨← Json.withDefault fields "event_capacity" d.eventCapacity Json.uint64?⟩

end StoreSettings

/-- What is logged, and whether as JSON. -/
structure LoggingSettings where
  level : String := "info"
  json : Bool := false
  deriving DecidableEq

namespace LoggingSettings

instance : Inhabited LoggingSettings := ⟨{}⟩

def fieldNames : List String := ["level", "json"]

def toJson (s : LoggingSettings) : Json :=
  .record [("level", .str s.level), ("json", .bool s.json)]

def ofJson? (v : Json) : Option LoggingSettings := do
  let fields ← v.fields? fieldNames
  let d : LoggingSettings := {}
  return ⟨← Json.withDefault fields "level" d.level Json.str?,
    ← Json.withDefault fields "json" d.json Json.bool?⟩

end LoggingSettings

/-- All settings. -/
structure Settings where
  controller : ControllerSettings := {}
  store : StoreSettings := {}
  logging : LoggingSettings := {}
  deriving DecidableEq

namespace Settings

instance : Inhabited Settings := ⟨{}⟩

def fieldNames : List String := ["controller", "store", "logging"]

def json (s : Settings) : Json :=
  .record [("controller", s.controller.json), ("store", s.store.json),
    ("logging", s.logging.toJson)]

def ofJson? (v : Json) : Option Settings := do
  let fields ← v.fields? fieldNames
  return {
    controller := ← Json.withDefault fields "controller" {} ControllerSettings.ofJson?
    store := ← Json.withDefault fields "store" {} StoreSettings.ofJson?
    logging := ← Json.withDefault fields "logging" {} LoggingSettings.ofJson? }

end Settings

end ClusterLink
