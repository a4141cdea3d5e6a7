import ClusterLink.Proofs.Settings.Fields
import ClusterLink.Proofs.Settings.Overlay
import Mathlib.Data.List.Induction

/-! Where each setting comes from. A file and the environment are laid over the defaults as nested
tables; read back, every setting on its own is what the environment says of it, or else what the
file says, or else its default (`Settings.load_layers`). A variable is read only if two underscores
follow its first word; with one underscore it is passed over. -/

namespace ClusterLink

open Setting (foldKey ofVariable)

/-- What a file says of a setting as it stands there: a table under the name of the group, and in it
a value under the name of the setting. -/
def Field.inFile? (f : Field) (l : List Assignment) : Option f.Value :=
  (l.find? fun a => foldKey a.1 = f.group).bind fun a =>
    (a.2.entries.find? fun e => foldKey e.1 = f.name).bind fun e => f.read e.2

/-- What the last variable for a setting says. -/
def Field.inEnvironment? (f : Field) (environment : List (String × String)) : Option f.Value :=
  (environment.reverse.find? fun e => foldKey e.1 = f.variableName).bind fun e =>
    f.read (ofVariable e.2)

/-! ## Assignments -/

namespace Setting

/-- Makes assignments one after the other. -/
def assignAll (root : Setting) (l : List Assignment) : Setting :=
  l.foldl (fun root a => root.assign a.1 a.2) root

/-- The table that assignments make of nothing. -/
def ofAssignments (l : List Assignment) : Setting := assignAll (.table []) l

theorem assignAll_append (root : Setting) (l l' : List Assignment) :
    root.assignAll (l ++ l') = (root.assignAll l).assignAll l' := List.foldl_append

theorem assignAll_concat (root : Setting) (l : List Assignment) (a : Assignment) :
    root.assignAll (l ++ [a]) = (root.assignAll l).assign a.1 a.2 := by
  simp [assignAll]

variable {root : Setting}

theorem arrayFree_toSetting (s : Settings) : ArrayFree s.toSetting := by
  have hinteger (n : Int) : ArrayFree (.integer n) := .of_entries_eq_nil rfl rfl
  have hcontroller : ArrayFree s.controller.toSetting :=
    .table_cons (hinteger _) (.table_cons (hinteger _) (.table_cons (hinteger _)
      (.table_cons (hinteger _) .table_nil)))
  have hstore : ArrayFree s.store.toSetting := .table_cons (hinteger _) .table_nil
  have hlogging : ArrayFree s.logging.toSetting :=
    .table_cons (.of_entries_eq_nil rfl rfl) (.table_cons (.of_entries_eq_nil rfl rfl) .table_nil)
  exact .table_cons hcontroller (.table_cons hstore (.table_cons hlogging .table_nil))

/-! ## What a file says -/

/-- What a value comes to where nothing is. -/
def settled : Setting → Setting
  | .table entries => putAll entries (.table [])
  | v => v

theorem put_of_get?_none {key : String} (h : root.get? key = none) (v : Setting) :
    put key v root = root.set key v.settled := by
  cases v with
  | table entries => rw [put, h, Option.getD_none, settled]
  | _ => simp only [put, settled]

/-- Entries with keys that differ, laid over a value that has none of them. -/
theorem get?_putAll {l : List (String × Setting)} (h : (l.map fun e => foldKey e.1).Nodup)
    (hnew : ∀ e ∈ l, root.get? (foldKey e.1) = none) (key : String) : (putAll l root).get? key =
      ((l.find? fun e => foldKey e.1 = key).map fun e => e.2.settled).or (root.get? key) := by
  induction l generalizing root with
  | nil => rfl
  | cons e rest ih =>
    obtain ⟨hne, hrest⟩ := List.nodup_cons.1 h
    have hset : put (foldKey e.1) e.2 root = root.set (foldKey e.1) e.2.settled :=
      put_of_get?_none (hnew e (.head _)) e.2
    have hother (e' : String × Setting) (he' : e' ∈ rest) : foldKey e'.1 ≠ foldKey e.1 :=
      fun he => hne (List.mem_map.2 ⟨e', he', he⟩)
    have hnew' (e' : String × Setting) (he' : e' ∈ rest) :
        (put (foldKey e.1) e.2 root).get? (foldKey e'.1) = none := by
      rw [hset, get?_set, if_neg (hother e' he')]
      exact hnew e' (.tail _ he')
    rw [putAll, ih hrest hnew', hset, get?_set, List.find?_cons]
    by_cases hk : foldKey e.1 = key
    · subst hk
      have hfind : rest.find? (fun e' => foldKey e'.1 = foldKey e.1) = none :=
        List.find?_eq_none.2 fun e' he' => by simpa using hother e' he'
      simp [hfind]
    · simp [hk, Ne.symm hk]

theorem get?_putAll_nothing {l : List (String × Setting)} (h : (l.map fun e => foldKey e.1).Nodup)
    (key : String) : (putAll l (.table [])).get? key =
      (l.find? fun e => foldKey e.1 = key).map fun e => e.2.settled :=
  (get?_putAll h (fun _ _ => rfl) key).trans Option.or_none

theorem get?_settled {v : Setting} (h : (v.entries.map fun e => foldKey e.1).Nodup)
    (key : String) :
    v.settled.get? key = (v.entries.find? fun e => foldKey e.1 = key).map fun e => e.2.settled := by
  cases v with
  | table => exact get?_putAll_nothing h key
  | _ => rfl

/-- No key of a file is a path, and on one level no two keys are the same but for case. -/
structure Tidy (l : List Assignment) : Prop where
  names : ∀ a ∈ l, path (foldKey a.1) = [.entry (foldKey a.1)]
  groups : (l.map fun a => foldKey a.1).Nodup
  fields : ∀ a ∈ l, (a.2.entries.map fun e => foldKey e.1).Nodup

theorem assignAll_eq_putAll {l : List Assignment}
    (h : ∀ a ∈ l, path (foldKey a.1) = [.entry (foldKey a.1)]) (root : Setting) :
    root.assignAll l = putAll l root := by
  induction l generalizing root with
  | nil => rfl
  | cons a rest ih =>
    have ha : root.assign a.1 a.2 = put (foldKey a.1) a.2 root := by
      rw [assign, h a (.head _), putAt]
    rw [putAll, ← ha]
    exact ih (fun a' ha' => h a' (.tail _ ha')) _

theorem put_eq_table (key : String) (v root : Setting) :
    ∃ entries, put key v root = .table entries := by
  cases v <;> exact ⟨_, rfl⟩

theorem putAll_eq_table (l entries : List (String × Setting)) :
    ∃ entries', putAll l (.table entries) = .table entries' := by
  induction l generalizing entries with
  | nil => exact ⟨entries, rfl⟩
  | cons e rest ih =>
    obtain ⟨next, hnext⟩ := put_eq_table (foldKey e.1) e.2 (.table entries)
    rw [putAll, hnext]
    exact ih next

theorem read_settled (f : Field) (v : Setting) : f.read v.settled = f.read v := by
  cases v with
  | table entries =>
    obtain ⟨entries', h⟩ := putAll_eq_table entries []
    rw [settled, h, f.read_table, f.read_table]
  | _ => rfl

/-- What a tidy file makes of nothing has the settings that stand there. -/
theorem Tidy.in?_ofAssignments {l : List Assignment} (h : Tidy l) (f : Field) :
    f.in? (ofAssignments l) = f.inFile? l := by
  rw [Field.in?, at?, ofAssignments, assignAll_eq_putAll h.names, get?_putAll_nothing h.groups,
    Field.inFile?]
  cases ha : l.find? fun a => foldKey a.1 = f.group with
  | none => rfl
  | some a =>
    rw [Option.map_some, Option.bind_some, Option.bind_some,
      get?_settled (h.fields a (List.mem_of_find?_eq_some ha))]
    cases a.2.entries.find? fun e => foldKey e.1 = f.name with
    | none => rfl
    | some e => exact read_settled f e.2

/-! ## The file -/

/-- What an assignment leaves is a table. -/
theorem assign_eq_table (root : Setting) (key : String) (v : Setting) :
    ∃ entries, root.assign key v = .table entries := by
  obtain ⟨name, rest, hpath⟩ : ∃ name rest, path (foldKey key) = .entry name :: rest := by
    simp only [path]
    split <;> exact ⟨_, _, rfl⟩
  rw [assign, hpath]
  cases rest with
  | nil => exact put_eq_table ..
  | cons step rest => exact ⟨_, rfl⟩

section

variable {file : Setting} (hfile : WellTyped file)
  (h : Over (some ({} : Settings).toSetting) (some file) (some root))
include hfile h

/-- What a file says of a setting stands, and where it says nothing, the default may stand. -/
theorem WellTyped.at?_over (f : Field) : (∃ v, file.at? f = some v ∧ root.at? f = some v) ∨
    file.at? f = none ∧
      (root.at? f = none ∨ root.at? f = some (f.written (Settings.value {} f))) := by
  have hover : Over (({} : Settings).toSetting.at? f) (file.at? f) (root.at? f) :=
    (h.entry f.group).entry f.name
  cases hv : file.at? f with
  | none =>
    rw [hv] at hover
    exact .inr ⟨rfl, hover.eq_or_of_none.imp_right fun hr => hr.trans (at?_toSetting {} f)⟩
  | some v =>
    rw [hv] at hover
    refine .inl ⟨v, rfl, hover.eq_of_ne_table fun entries he => ?_⟩
    have hread := hfile.fields f v hv
    rw [he, f.read_table] at hread
    cases hread

/-- The groups are tables as before. -/
theorem WellTyped.group_over {f : Field} {v : Setting} (hv : root.get? f.group = some v) :
    ∃ entries, v = .table entries := by
  obtain ⟨defaults, hdefaults⟩ := get?_toSetting {} f
  have hover : Over (some (.table defaults)) (file.get? f.group) (some v) := by
    rw [← hdefaults, ← hv]
    exact h.entry f.group
  cases hw : file.get? f.group with
  | none =>
    rw [hw] at hover
    rcases hover.eq_or_of_none with hr | hr
    · cases hr
    · exact ⟨defaults, Option.some.inj hr⟩
  | some w =>
    obtain ⟨entries, rfl⟩ := hfile.groups f w hw
    rw [hw] at hover
    rcases hover.table_or with ⟨entries', hr⟩ | hr
    · exact ⟨entries', Option.some.inj hr⟩
    · exact ⟨defaults, Option.some.inj hr⟩

/-- What a file of well typed settings makes of the defaults. -/
theorem WellTyped.over : WellTyped root ∧ ∀ f : Field, f.valueIn root = f.valueIn file := by
  refine ⟨⟨fun f v hv => hfile.group_over h hv, fun f v hv => ?_⟩, fun f => ?_⟩
  · rcases hfile.at?_over h f with ⟨w, hw, hr⟩ | ⟨-, hr | hr⟩
    · cases hv.symm.trans hr
      exact hfile.fields f v hw
    · cases hv.symm.trans hr
    · cases hv.symm.trans hr
      exact Option.isSome_of_eq_some (read_written f _)
  · simp only [Field.valueIn, Field.in?]
    rcases hfile.at?_over h f with ⟨w, hw, hr⟩ | ⟨hw, hr | hr⟩
    · rw [hw, hr]
    · rw [hw, hr]
    · rw [hw, hr, Option.bind_some, read_written]
      rfl

end

/-! ## The environment -/

theorem put_of_ne_table {v : Setting} (hv : ∀ entries, v ≠ .table entries) (key : String)
    (root : Setting) : put key v root = root.set key v := by
  cases v with
  | table entries => exact absurd rfl (hv entries)
  | _ => simp only [put]

theorem ofVariable_ne_table (value : String) (entries : List (String × Setting)) :
    ofVariable value ≠ .table entries := by
  simp only [ofVariable]
  repeat' split
  all_goals nofun

end Setting

open Setting

namespace Field

/-- The key of a setting in an assignment. -/
def key (f : Field) : String := f.group ++ "." ++ f.name

theorem path_key (f : Field) : path (foldKey f.key) = [.entry f.group, .entry f.name] := by
  cases f <;> decide

theorem ofEnvironment?_of_variableName {f : Field} {e : String × String}
    (h : foldKey e.1 = f.variableName) : ofEnvironment? e = some (f.key, ofVariable e.2) := by
  unfold ofEnvironment?
  rw [h]
  cases f <;> rfl

theorem ofEnvironment?_of_documentedName {f : Field} {e : String × String}
    (h : foldKey e.1 = f.documentedName) : ofEnvironment? e = none := by
  unfold ofEnvironment?
  rw [h]
  cases f <;> rfl

theorem key_injective {f f' : Field} (h : f.key = f'.key) : f = f' := by
  have hpath : [Step.entry f.group, .entry f.name] = [.entry f'.group, .entry f'.name] := by
    rw [← path_key, ← path_key, h]
  refine name_injective ?_
  simpa using (List.cons.inj hpath).2

theorem inEnvironment?_concat_of_ne {f : Field} {e : String × String}
    (h : foldKey e.1 ≠ f.variableName) (environment : List (String × String)) :
    f.inEnvironment? (environment ++ [e]) = f.inEnvironment? environment := by
  simp [inEnvironment?, h]

theorem inEnvironment?_concat_of_eq {f : Field} {e : String × String}
    (h : foldKey e.1 = f.variableName) (environment : List (String × String)) :
    f.inEnvironment? (environment ++ [e]) = f.read (ofVariable e.2) := by
  simp [inEnvironment?, h]

end Field

namespace Setting

variable {root : Setting}

theorem assign_key (f : Field) {v : Setting} (hv : ∀ entries, v ≠ .table entries)
    (root : Setting) : root.assign f.key v =
      root.set f.group (((root.get? f.group).getD .absent).set f.name v) := by
  rw [assign, f.path_key]
  exact congrArg (root.set f.group) (put_of_ne_table hv ..)

/-- An assignment to one setting changes no other. -/
theorem at?_assign (f : Field) {v : Setting} (hv : ∀ entries, v ≠ .table entries) (root : Setting)
    (f' : Field) : (root.assign f.key v).at? f' = if f' = f then some v else root.at? f' := by
  rw [assign_key f hv, at?, get?_set]
  split
  next hgroup =>
    rw [Option.bind_some, get?_set]
    by_cases hf : f' = f
    · rw [if_pos (congrArg Field.name hf), if_pos hf]
    · rw [if_neg fun hn => hf (Field.name_injective hn), if_neg hf, at?, ← hgroup]
      cases root.get? f'.group <;> rfl
  next hgroup =>
    rw [if_neg fun hf => hgroup (congrArg Field.group hf)]
    rfl

/-- One variable more. -/
theorem WellTyped.assign (h : WellTyped root) {f : Field} {v : Setting}
    (hv : (f.read v).isSome) : WellTyped (root.assign f.key v) := by
  have hne (entries : List (String × Setting)) : v ≠ .table entries := by
    rintro rfl
    rw [f.read_table] at hv
    cases hv
  refine ⟨fun f' w hw => ?_, fun f' w hw => ?_⟩
  · rw [assign_key f hne, get?_set] at hw
    split at hw
    next =>
      cases hw
      exact ⟨_, rfl⟩
    next => exact h.groups f' w hw
  · rw [at?_assign f hne] at hw
    split at hw
    next hf =>
      cases hw
      exact hf ▸ hv
    next => exact h.fields f' w hw

/-- Every variable that is read is that of a setting and has a value for it. -/
def VariablesTyped (environment : List (String × String)) : Prop :=
  ∀ e ∈ environment, (ofEnvironment? e).isSome →
    ∃ f : Field, foldKey e.1 = f.variableName ∧ (f.read (ofVariable e.2)).isSome

/-- What variables of the environment make of a table of groups. -/
theorem WellTyped.environment (h : WellTyped root) {environment : List (String × String)}
    (henv : VariablesTyped environment) :
    let finish := root.assignAll (environment.filterMap ofEnvironment?)
    WellTyped finish ∧
      ∀ f : Field, f.in? finish = (f.inEnvironment? environment).or (f.in? root) := by
  induction environment using List.reverseRecOn with
  | nil => exact ⟨h, fun f => rfl⟩
  | append_singleton environment e ih =>
    obtain ⟨htyped, hin⟩ := ih fun e' he' => henv e' (List.mem_append_left _ he')
    simp only [List.filterMap_append, assignAll_append]
    generalize root.assignAll (environment.filterMap ofEnvironment?) = r at htyped hin ⊢
    cases he : ofEnvironment? e with
    | none =>
      have hne (f : Field) : foldKey e.1 ≠ f.variableName := fun hf =>
        nomatch he.symm.trans (Field.ofEnvironment?_of_variableName hf)
      simp only [List.filterMap_cons, he, List.filterMap_nil, assignAll, List.foldl_nil,
        Field.inEnvironment?_concat_of_ne (hne _)]
      exact ⟨htyped, hin⟩
    | some a =>
      obtain ⟨f, hname, hread⟩ := henv e (by simp) (by rw [he]; rfl)
      obtain rfl : a = (f.key, ofVariable e.2) :=
        Option.some.inj (he.symm.trans (Field.ofEnvironment?_of_variableName hname))
      simp only [List.filterMap_cons, he, List.filterMap_nil, assignAll, List.foldl_cons,
        List.foldl_nil]
      refine ⟨htyped.assign hread, fun f' => ?_⟩
      obtain ⟨value, hvalue⟩ := Option.isSome_iff_exists.1 hread
      rw [Field.in?, at?_assign f (ofVariable_ne_table e.2)]
      by_cases hf : f' = f
      · subst hf
        rw [if_pos rfl, Option.bind_some, Field.inEnvironment?_concat_of_eq hname, hvalue]
        rfl
      · have hne : foldKey e.1 ≠ f'.variableName := fun hf' => hf <| Field.key_injective <|
          congrArg Prod.fst <| Option.some.inj <|
            (Field.ofEnvironment?_of_variableName hf').symm.trans he
        rw [if_neg hf, Field.inEnvironment?_concat_of_ne hne]
        exact hin f'

end Setting

namespace Settings

variable {readers : Readers}

/-- The assignments of a file, if there is one. -/
def ofFile? (readers : Readers) : Option (String × String) → Option (List Assignment)
  | none => some []
  | some (fileName, content) => Setting.ofFile? readers fileName content

theorem load_eq (file : Option (String × String)) (environment : List (String × String)) :
    load readers file environment = (ofFile? readers file).bind fun l =>
      ofSetting? (overDefaults (l ++ environment.filterMap Setting.ofEnvironment?)) := by
  cases file <;> rfl

theorem overDefaults_eq (l : List Assignment) :
    overDefaults l = ({} : Settings).toSetting.assignAll l := rfl

theorem overDefaults_eq_table (l : List Assignment) :
    ∃ entries, overDefaults l = .table entries := by
  rw [overDefaults_eq]
  induction l using List.reverseRecOn with
  | nil => exact ⟨_, rfl⟩
  | append_singleton l a =>
    rw [assignAll_concat]
    exact assign_eq_table ..

/-- What a file makes of the defaults, beside what it makes of nothing. -/
theorem over_defaults (l : List Assignment) :
    Over (some ({} : Settings).toSetting) (some (.ofAssignments l)) (some (overDefaults l)) := by
  rw [overDefaults_eq, Setting.ofAssignments]
  induction l using List.reverseRecOn with
  | nil =>
    have hdefaults (b : Setting) (hb : some ({} : Settings).toSetting = some b) : ArrayFree b :=
      Option.some.inj hb ▸ arrayFree_toSetting {}
    exact (Over.untouched hdefaults).getD_table
  | append_singleton l a ih =>
    rw [assignAll_concat, assignAll_concat]
    exact ih.assign a.1 a.2

/-- **The layers apply setting by setting.** Where a file is well typed as far as it goes, and so
are the variables of the environment that are read, loading succeeds, and every setting on its own
is what its variable says, or else what the file makes of it, or else its default, whatever readers
there are for files that are neither JSON nor TOML. What a tidy file makes of a setting is what it
says. A variable is read under its name with two underscores in front of the group. Under the name
in the instructions for use, which has one there, it changes nothing. -/
theorem load_layers {file : Option (String × String)} {assignments : List Assignment}
    {environment : List (String × String)} (hfile : ofFile? readers file = some assignments)
    (htyped : WellTyped (.ofAssignments assignments)) (henv : VariablesTyped environment) :
    (∃ s, load readers file environment = some s ∧ ∀ f : Field, s.value f =
      ((f.inEnvironment? environment).or (f.in? (.ofAssignments assignments))).getD f.default) ∧
    (Tidy assignments → ∀ f : Field, f.in? (.ofAssignments assignments) = f.inFile? assignments) ∧
    ∀ (f : Field) e, foldKey e.1 = f.documentedName →
      load readers file (e :: environment) = load readers file environment := by
  refine ⟨?_, fun htidy f => htidy.in?_ofAssignments f, fun f e he => ?_⟩
  · obtain ⟨htyped, hvalue⟩ := htyped.over (over_defaults assignments)
    obtain ⟨htyped, hin⟩ := htyped.environment henv
    rw [overDefaults_eq, ← assignAll_append, ← overDefaults_eq] at htyped hin
    obtain ⟨entries, htable⟩ :=
      overDefaults_eq_table (assignments ++ environment.filterMap Setting.ofEnvironment?)
    refine ⟨.ofValues fun f => f.valueIn (.table entries), ?_,
      fun f => (value_ofValues _ f).trans ?_⟩
    · rw [load_eq, hfile, Option.bind_some, htable]
      exact (htable ▸ htyped).ofSetting?
    · have hf := hvalue f
      rw [Field.valueIn, Field.valueIn] at hf
      rw [Field.valueIn, ← htable, hin, ← overDefaults_eq]
      cases f.inEnvironment? environment with
      | some value => rfl
      | none => exact hf
  · rw [load_eq, load_eq, List.filterMap_cons, Field.ofEnvironment?_of_documentedName he]

theorem withoutMark_eq_self {content : String} (h : content.toList.head? ≠ some '\uFEFF') :
    withoutMark content = content := by
  unfold withoutMark
  split
  next rest hcontent =>
    rw [hcontent] at h
    exact absurd rfl h
  next => rfl

/-- A file with two settings, one of which has a variable as well, as JSON and as YAML, of which
the reader knows this text; and the name of another variable as the instructions for use have
it. -/
theorem load_layers_of_file :
    let assignments := [("Logging", Setting.table [("json", .integer 1), ("level", .text "warn")])]
    let json := "\x7b\"Logging\": \x7b\"json\": 1, \"level\": \"warn\"\x7d\x7d"
    let yaml := "Logging:\n  json: 1\n  level: warn\n"
    let readers : Readers := fun kind content =>
      if kind = .yaml ∧ content = yaml then some assignments else none
    let environment := [("Assoc__Logging__Level", "debug"),
      ("ASSOC_CONTROLLER__BACKOFF_BASE_MS", "9")]
    ∃ s, load readers (some ("settings.json", json)) environment = some s ∧
      load readers (some ("settings.yaml", yaml)) environment = some s ∧
      s.logging.level = "debug" ∧ s.logging.json ∧ s.controller.backoffBaseMs = 5 := by
  intro assignments json yaml readers environment
  have hjson : ofFile? readers (some ("settings.json", json)) = some assignments := by
    show ofJsonText? (withoutMark json) = some assignments
    rw [withoutMark_eq_self (by decide)]
    dsimp only [json]
    refine bind_of_eq_some (a := .object [(some "Logging", .object
      [(some "json", .number "1"), (some "level", .text (some "warn"))])]) (by rfl) ?_
    exact bind_of_eq_some (a := .table assignments) (by rfl) rfl
  have hyaml : ofFile? readers (some ("settings.yaml", yaml)) = some assignments := by
    show readers .yaml (withoutMark yaml) = some assignments
    rw [withoutMark_eq_self (by decide)]
    exact if_pos ⟨rfl, rfl⟩
  have htyped : WellTyped (.ofAssignments assignments) := by
    refine ⟨fun f v hv => ?_, fun f v hv => ?_⟩
    · cases f <;> cases hv <;> exact ⟨_, rfl⟩
    · cases f <;> cases hv <;> rfl
  have henv : VariablesTyped environment := by
    rintro e he hread
    rcases List.mem_cons.1 he with rfl | he
    · exact ⟨.level, by decide, by decide⟩
    · cases List.mem_singleton.1 he
      cases hread
  obtain ⟨⟨s, hs, hvalues⟩, htidy, -⟩ := load_layers hyaml htyped henv
  simp only [htidy ⟨by decide, by decide, by decide⟩] at hvalues
  have hsame : load readers (some ("settings.json", json)) environment = some s := by
    rw [load_eq, hjson, ← hyaml, ← load_eq]
    exact hs
  exact ⟨s, hsame, hs, hvalues .level, hvalues .json, hvalues .backoffBaseMs⟩

/-- The variable of the instructions for use, with a value that would do for its setting. -/
theorem documented_variable_not_loaded :
    let e := ("ASSOC_CONTROLLER__MAX_CONCURRENT_RECONCILES", "8")
    foldKey e.1 = Field.documentedName .maxConcurrentReconciles ∧
      Field.read .maxConcurrentReconciles (ofVariable e.2) = some 8 ∧
      (load (fun _ _ => none) none [e]).map (·.controller.maxConcurrentReconciles) = some 4 := by
  intro e
  exact ⟨by decide, by decide, by decide⟩

end Settings

end ClusterLink
