import ClusterLink.Proofs.Text.Digits
import ClusterLink.Settings.Load

/-! The settings one by one. Each stands under its own name in the table of a group, has a type and
a default, and is read by itself: `Setting.WellTyped.ofSetting?` says so of every table of groups in
which whatever is there is of its type. -/

namespace ClusterLink

/-- One of the settings. -/
inductive Field where
  | maxConcurrentReconciles
  | reconcileTimeoutSecs
  | backoffBaseMs
  | backoffMaxSecs
  | eventCapacity
  | level
  | json
  deriving DecidableEq

namespace Field

/-- The table that a setting stands in. -/
def group : Field → String
  | .maxConcurrentReconciles | .reconcileTimeoutSecs | .backoffBaseMs | .backoffMaxSecs =>
    "controller"
  | .eventCapacity => "store"
  | .level | .json => "logging"

def name : Field → String
  | .maxConcurrentReconciles => "max_concurrent_reconciles"
  | .reconcileTimeoutSecs => "reconcile_timeout_secs"
  | .backoffBaseMs => "backoff_base_ms"
  | .backoffMaxSecs => "backoff_max_secs"
  | .eventCapacity => "event_capacity"
  | .level => "level"
  | .json => "json"

abbrev Value : Field → Type
  | .level => String
  | .json => Bool
  | _ => UInt64

/-- What a value stands for where a setting is wanted. -/
def read : (f : Field) → Setting → Option f.Value
  | .level => Setting.text?
  | .json => Setting.bool?
  | .maxConcurrentReconciles | .reconcileTimeoutSecs | .backoffBaseMs | .backoffMaxSecs
  | .eventCapacity => Setting.uint64?

def written : (f : Field) → f.Value → Setting
  | .level => .text
  | .json => .bool
  | .maxConcurrentReconciles | .reconcileTimeoutSecs | .backoffBaseMs | .backoffMaxSecs
  | .eventCapacity => fun n => .integer n.toNat

/-- The variable of a setting, with small letters. -/
def variableName (f : Field) : String := "assoc__" ++ f.group ++ "__" ++ f.name

/-- The variable of a setting as the instructions for use have it, with small letters. -/
def documentedName (f : Field) : String := "assoc_" ++ f.group ++ "__" ++ f.name

theorem name_injective {f f' : Field} (h : f.name = f'.name) : f = f' := by
  cases f <;> cases f' <;> first | rfl | exact absurd h (by decide)

theorem read_table (f : Field) (entries : List (String × Setting)) :
    f.read (.table entries) = none := by
  cases f <;> rfl

end Field

def Settings.value (s : Settings) : (f : Field) → f.Value
  | .maxConcurrentReconciles => s.controller.maxConcurrentReconciles
  | .reconcileTimeoutSecs => s.controller.reconcileTimeoutSecs
  | .backoffBaseMs => s.controller.backoffBaseMs
  | .backoffMaxSecs => s.controller.backoffMaxSecs
  | .eventCapacity => s.store.eventCapacity
  | .level => s.logging.level
  | .json => s.logging.json

/-- The settings of given values. -/
def Settings.ofValues (value : (f : Field) → f.Value) : Settings where
  controller :=
    { maxConcurrentReconciles := value .maxConcurrentReconciles
      reconcileTimeoutSecs := value .reconcileTimeoutSecs
      backoffBaseMs := value .backoffBaseMs
      backoffMaxSecs := value .backoffMaxSecs }
  store := { eventCapacity := value .eventCapacity }
  logging := { level := value .level, json := value .json }

theorem Settings.value_ofValues (value : (f : Field) → f.Value) (f : Field) :
    (ofValues value).value f = value f := by
  cases f <;> rfl

def Field.default (f : Field) : f.Value := ({} : Settings).value f

/-! ## Tables of settings -/

/-- What stands in the place of a setting. -/
def Setting.at? (root : Setting) (f : Field) : Option Setting :=
  (root.get? f.group).bind (·.get? f.name)

/-- The setting that a table of groups has, if it has it. -/
def Field.in? (f : Field) (root : Setting) : Option f.Value := (root.at? f).bind f.read

def Field.valueIn (f : Field) (root : Setting) : f.Value := (f.in? root).getD f.default

namespace Setting

/-- The settings that are there are of their types. -/
structure WellTyped (root : Setting) : Prop where
  groups : ∀ (f : Field) v, root.get? f.group = some v → ∃ entries, v = .table entries
  fields : ∀ (f : Field) v, root.at? f = some v → (f.read v).isSome

variable {root : Setting}

/-! ## Reading -/

theorem withDefault_of_readable {α : Type} {fields : List (String × Setting)} {name : String}
    {read : Setting → Option α} (default : α)
    (h : ∀ v, fields.lookup name = some v → (read v).isSome) :
    withDefault fields name default read =
      some (((fields.lookup name).bind read).getD default) := by
  unfold withDefault
  split
  next hn => rw [hn]; rfl
  next v hv =>
    obtain ⟨a, ha⟩ := Option.isSome_iff_exists.1 (h v hv)
    rw [hv, Option.bind_some, ha]
    rfl

theorem withDefault_group {α : Type} {read : Setting → Option α} {default group : α}
    {fields entries : List (String × Setting)} {name : String}
    (hdefault : read (.table []) = some default)
    (hentries : (fields.lookup name).getD (.table []) = .table entries)
    (hread : read (.table entries) = some group) :
    withDefault fields name default read = some group := by
  unfold withDefault
  split
  next hn =>
    rw [hn, Option.getD_none] at hentries
    rw [← hentries] at hread
    exact hdefault.symm.trans hread
  next v hv =>
    rw [hv, Option.getD_some] at hentries
    rw [hentries]
    exact hread

/-- What is read of a group in which everything is of its type. -/
theorem WellTyped.group (h : WellTyped root) (f : Field) :
    ∃ fields, (root.get? f.group).getD (.table []) = .table fields ∧
      ∀ f' : Field, f'.group = f.group →
        withDefault fields f'.name f'.default f'.read = some (f'.valueIn root) := by
  have hread {fields : List (String × Setting)} {f' : Field}
      (hf' : fields.lookup f'.name = root.at? f') :
      withDefault fields f'.name f'.default f'.read = some (f'.valueIn root) := by
    rw [withDefault_of_readable _ fun v hv => h.fields f' v (hf' ▸ hv), hf']
    rfl
  cases hg : root.get? f.group with
  | none =>
    refine ⟨[], rfl, fun f' hf' => hread ?_⟩
    rw [at?, hf', hg]
    rfl
  | some v =>
    obtain ⟨fields, rfl⟩ := h.groups f v hg
    refine ⟨fields, rfl, fun f' hf' => hread ?_⟩
    rw [at?, hf', hg]
    rfl

/-- A table of groups in which everything is of its type is read setting by setting. -/
theorem WellTyped.ofSetting? {entries : List (String × Setting)} (h : WellTyped (.table entries)) :
    Settings.ofSetting? (.table entries) =
      some (.ofValues fun f => f.valueIn (.table entries)) := by
  obtain ⟨controller, hcontroller, hc⟩ := h.group .maxConcurrentReconciles
  obtain ⟨store, hstore, hs⟩ := h.group .eventCapacity
  obtain ⟨logging, hlogging, hl⟩ := h.group .level
  let value (f : Field) := f.valueIn (.table entries)
  have hcontroller : withDefault entries "controller" {} ControllerSettings.ofSetting? =
      some (Settings.ofValues value).controller := by
    refine withDefault_group rfl hcontroller ?_
    refine bind_of_eq_some rfl ?_
    refine bind_of_eq_some (hc .maxConcurrentReconciles rfl) ?_
    refine bind_of_eq_some (hc .reconcileTimeoutSecs rfl) ?_
    refine bind_of_eq_some (hc .backoffBaseMs rfl) ?_
    exact bind_of_eq_some (hc .backoffMaxSecs rfl) rfl
  have hstore : withDefault entries "store" {} StoreSettings.ofSetting? =
      some (Settings.ofValues value).store := by
    refine withDefault_group rfl hstore ?_
    refine bind_of_eq_some rfl ?_
    exact bind_of_eq_some (hs .eventCapacity rfl) rfl
  have hlogging : withDefault entries "logging" {} LoggingSettings.ofSetting? =
      some (Settings.ofValues value).logging := by
    refine withDefault_group rfl hlogging ?_
    refine bind_of_eq_some rfl ?_
    refine bind_of_eq_some (hl .level rfl) ?_
    exact bind_of_eq_some (hl .json rfl) rfl
  refine bind_of_eq_some rfl ?_
  refine bind_of_eq_some hcontroller ?_
  refine bind_of_eq_some hstore ?_
  exact bind_of_eq_some hlogging rfl

/-! ## Settings as a table -/

theorem uint64?_integer (n : UInt64) : uint64? (.integer n.toNat) = some n := by
  have h : (0 : Int) ≤ n.toNat ∧ (n.toNat : Int) < UInt64.size :=
    ⟨Int.natCast_nonneg _, Int.ofNat_lt.2 n.toNat_lt⟩
  rw [uint64?, if_pos h, Int.toNat_natCast, UInt64.ofNat_toNat]

theorem at?_toSetting (s : Settings) (f : Field) :
    s.toSetting.at? f = some (f.written (s.value f)) := by
  cases f <;> rfl

theorem read_written (f : Field) (v : f.Value) : f.read (f.written v) = some v := by
  cases f with
  | level => rfl
  | json => rfl
  | _ => exact uint64?_integer v

theorem in?_toSetting (s : Settings) (f : Field) : f.in? s.toSetting = some (s.value f) := by
  rw [Field.in?, at?_toSetting]
  exact read_written f _

theorem get?_toSetting (s : Settings) (f : Field) :
    ∃ entries, s.toSetting.get? f.group = some (.table entries) := by
  cases f <;> exact ⟨_, rfl⟩

theorem wellTyped_toSetting (s : Settings) : WellTyped s.toSetting where
  groups f v hv := by
    obtain ⟨entries, h⟩ := get?_toSetting s f
    exact ⟨entries, Option.some.inj (hv.symm.trans h)⟩
  fields f v hv := by
    cases hv.symm.trans (at?_toSetting s f)
    exact Option.isSome_of_eq_some (read_written f _)

end Setting

/-- Settings are read back from the table that they are written as. -/
theorem Settings.ofSetting?_toSetting (s : Settings) : ofSetting? s.toSetting = some s := by
  have h : ofSetting? s.toSetting = some (.ofValues fun f => f.valueIn s.toSetting) :=
    Setting.WellTyped.ofSetting? (Setting.wellTyped_toSetting s)
  have hvalue (f : Field) : f.valueIn s.toSetting = s.value f := by
    rw [Field.valueIn, Setting.in?_toSetting, Option.getD_some]
  simp only [hvalue] at h
  exact h

end ClusterLink
