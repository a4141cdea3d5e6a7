import ClusterLink.Settings.Basic
import ClusterLink.Settings.Source

/-! Loading the settings: over the defaults come the assignments of a file, and over these those of
the environment; what results is read field by field. -/

namespace ClusterLink

namespace ControllerSettings

def toSetting (s : ControllerSettings) : Setting :=
  .table [("max_concurrent_reconciles", .integer s.maxConcurrentReconciles.toNat),
    ("reconcile_timeout_secs", .integer s.reconcileTimeoutSecs.toNat),
    ("backoff_base_ms", .integer s.backoffBaseMs.toNat),
    ("backoff_max_secs", .integer s.backoffMaxSecs.toNat)]

def ofSetting? (v : Setting) : Option ControllerSettings := do
  let fields ← v.fields? fieldNames
  let d : ControllerSettings := {}
  return {
    maxConcurrentReconciles := ← Setting.withDefault fields "max_concurrent_reconciles"
      d.maxConcurrentReconciles Setting.uint64?
    reconcileTimeoutSecs := ← Setting.withDefault fields "reconcile_timeout_secs"
      d.reconcileTimeoutSecs Setting.uint64?
    backoffBaseMs := ←
      Setting.withDefault fields "backoff_base_ms" d.backoffBaseMs Setting.uint64?
    backoffMaxSecs := ←
      Setting.withDefault fields "backoff_max_secs" d.backoffMaxSecs Setting.uint64? }

end ControllerSettings

namespace StoreSettings

def toSetting (s : StoreSettings) : Setting :=
  .table [("event_capacity", .integer s.eventCapacity.toNat)]

def ofSetting? (v : Setting) : Option StoreSettings := do
  let fields ← v.fields? fieldNames
  let d : StoreSettings := {}
  return ⟨← Setting.withDefault fields "event_capacity" d.eventCapacity Setting.uint64?⟩

end StoreSettings

namespace LoggingSettings

def toSetting (s : LoggingSettings) : Setting :=
  .table [("level", .text s.level), ("json", .bool s.json)]

def ofSetting? (v : Setting) : Option LoggingSettings := do
  let fields ← v.fields? fieldNames
  let d : LoggingSettings := {}
  return ⟨← Setting.withDefault fields "level" d.level Setting.text?,
    ← Setting.withDefault fields "json" d.json Setting.bool?⟩

end LoggingSettings

namespace Settings

def toSetting (s : Settings) : Setting :=
  .table [("controller", s.controller.toSetting), ("store", s.store.toSetting),
    ("logging", s.logging.toSetting)]

def ofSetting? (v : Setting) : Option Settings := do
  let fields ← v.fields? fieldNames
  return {
    controller := ← Setting.withDefault fields "controller" {} ControllerSettings.ofSetting?
    store := ← Setting.withDefault fields "store" {} StoreSettings.ofSetting?
    logging := ← Setting.withDefault fields "logging" {} LoggingSettings.ofSetting? }

/-- The defaults with assignments laid over them, one after the other. -/
def overDefaults (assignments : List Assignment) : Setting :=
  assignments.foldl (fun root a => root.assign a.1 a.2) ({} : Settings).toSetting

/-- The settings that a file, given by its name and content, and the environment amount to. -/
def load (readers : Setting.Readers) (file : Option (String × String))
    (environment : List (String × String)) : Option Settings := do
  let ofFile ←
    match file with
    | none => some []
    | some (fileName, content) => Setting.ofFile? readers fileName content
  ofSetting? (overDefaults (ofFile ++ environment.filterMap Setting.ofEnvironment?))

end Settings

end ClusterLink
