import ClusterLink.Settings.Layer

/-! Assignments over two different values. What assignments make of a value that is there already is
told by what they make of nothing (`Setting.Over`): where they put no table, the outcome is the
same, and where they put nothing, what was there is still there, unless all around it was
replaced. -/

namespace ClusterLink.Setting

/-! ## Entries -/

theorem lookup_cons (key name : String) (v : Setting) (rest : List (String × Setting)) :
    ((name, v) :: rest).lookup key = if key = name then some v else rest.lookup key := by
  rw [List.lookup_cons]
  by_cases h : key = name
  · simp [h]
  · simp [h, beq_eq_false_iff_ne.2 h]

theorem lookup_setEntry (key k : String) (v : Setting) (l : List (String × Setting)) :
    (setEntry key v l).lookup k = if k = key then some v else l.lookup k := by
  induction l with
  | nil => exact lookup_cons ..
  | cons entry rest ih =>
    obtain ⟨name, old⟩ := entry
    simp only [setEntry]
    split
    next h =>
      subst h
      rw [lookup_cons, lookup_cons]
      split <;> rfl
    next hne =>
      rw [lookup_cons, lookup_cons, ih]
      split
      next hk => rw [if_neg fun he => hne (hk.symm.trans he)]
      next => rfl

theorem get?_set (s : Setting) (key k : String) (v : Setting) :
    (s.set key v).get? k = if k = key then some v else s.get? k := lookup_setEntry ..

/-! ## Values without arrays -/

/-- No array is anywhere in a value. -/
inductive ArrayFree : Setting → Prop where
  | intro {v} (items : v.items = []) (entries : ∀ key w, v.get? key = some w → ArrayFree w) :
    ArrayFree v

namespace ArrayFree

theorem of_entries_eq_nil {v : Setting} (hitems : v.items = []) (hentries : v.entries = []) :
    ArrayFree v := by
  refine ⟨hitems, fun key w hw => ?_⟩
  rw [get?, hentries] at hw
  cases hw

theorem table_nil : ArrayFree (.table []) := of_entries_eq_nil rfl rfl

theorem table_cons {key : String} {v : Setting} {rest : List (String × Setting)} (hv : ArrayFree v)
    (hrest : ArrayFree (.table rest)) : ArrayFree (.table ((key, v) :: rest)) := by
  obtain ⟨-, hrest⟩ := hrest
  refine ⟨rfl, fun k w hw => ?_⟩
  replace hw := (lookup_cons k key v rest).symm.trans hw
  split at hw
  next =>
    cases hw
    exact hv
  next => exact hrest k w hw

end ArrayFree

/-! ## What assignments make of two values -/

/-- What assignments make of `base`, where they make `file` of nothing. -/
inductive Over : Option Setting → Option Setting → Option Setting → Prop where
  /-- Nothing was put here. -/
  | untouched {base} (h : ∀ b, base = some b → ArrayFree b) : Over base none base
  /-- This was put here, or something around it was. -/
  | same {base value} : Over base value value
  /-- An empty table was put here. -/
  | kept {b} (hentries : b.entries = []) (hitems : b.items = []) :
    Over (some b) (some (.table [])) (some b)
  | tables {base entries entries'}
    (h : ∀ key, Over (base.bind (·.get? key)) (entries.lookup key) (entries'.lookup key)) :
    Over base (some (.table entries)) (some (.table entries'))

variable {base file value : Option Setting} {f r : Setting}

/-- The same of the entries of two values. -/
def OverEntries (base : Option Setting) (f r : Setting) : Prop :=
  ∀ key, Over (base.bind (·.get? key)) (f.get? key) (r.get? key)

namespace Over

theorem entry (h : Over base file value) (key : String) :
    Over (base.bind (·.get? key)) (file.bind (·.get? key)) (value.bind (·.get? key)) := by
  cases h with
  | same => exact .same
  | tables h => exact h key
  | @kept b hentries =>
    have hb : b.get? key = none := by
      rw [Setting.get?, hentries]
      rfl
    rw [Option.bind_some, hb]
    exact .same
  | untouched h =>
    cases base with
    | none => exact .same
    | some b =>
      obtain ⟨-, hentries⟩ := h b rfl
      exact .untouched fun w hw => hentries key w hw

theorem entries (h : Over base file value) :
    OverEntries base (file.getD .absent) (value.getD .absent) := by
  cases file <;> cases value <;> exact h.entry

/-- One entry more. -/
theorem set {v w : Setting} (h : OverEntries base f r) {key : String}
    (hv : Over (base.bind (·.get? key)) (some v) (some w)) :
    Over base (some (f.set key v)) (some (r.set key w)) := by
  refine .tables fun k => ?_
  rw [lookup_setEntry, lookup_setEntry]
  split
  next hk => exact hk ▸ hv
  next => exact h k

/-- Where nothing was put, an empty table may stand. -/
theorem getD_table (h : Over base file value) :
    Over base (some (file.getD (.table []))) (some (value.getD (.table []))) := by
  cases h with
  | same => exact .same
  | kept hentries hitems => exact .kept hentries hitems
  | tables h => exact .tables h
  | untouched h =>
    cases base with
    | none => exact .same
    | some b =>
      obtain ⟨hitems, hentries⟩ := h b rfl
      cases b with
      | table entries => exact .tables fun key => .untouched fun w hw => hentries key w hw
      | _ => exact .kept rfl hitems

/-- The two have the same items, or none of them is an array. -/
theorem items (h : Over base file value) :
    (file.getD .absent).items = (value.getD .absent).items := by
  cases h with
  | same => rfl
  | kept _ hitems => exact hitems.symm
  | tables => rfl
  | untouched h =>
    cases base with
    | none => rfl
    | some b =>
      obtain ⟨hitems, -⟩ := h b rfl
      exact hitems.symm

mutual

theorem put : (v : Setting) → ∀ {base f r}, OverEntries base f r → ∀ key,
    Over base (some (Setting.put key v f)) (some (Setting.put key v r))
  | .table entries, _, _, _, h, key => by
    simp only [Setting.put]
    exact set h (putAll entries (h key).getD_table)
  | .absent, _, _, _, h, _ | .bool _, _, _, _, h, _ | .integer _, _, _, _, h, _
  | .float _, _, _, _, h, _ | .text _, _, _, _, h, _ | .array _, _, _, _, h, _ => by
    simp only [Setting.put]
    exact set h .same

theorem putAll : (entries : List (String × Setting)) → ∀ {base f r}, Over base (some f) (some r) →
    Over base (some (Setting.putAll entries f)) (some (Setting.putAll entries r))
  | [], _, _, _, h => h
  | (key, v) :: rest, _, _, _, h => by
    simp only [Setting.putAll]
    exact putAll rest (put v h.entries (foldKey key))

end

theorem putAt (v : Setting) (path : List Step) (h : Over base file value) :
    Over base (some (Setting.putAt path v (file.getD .absent)))
      (some (Setting.putAt path v (value.getD .absent))) := by
  induction path generalizing base file value with
  | nil => exact .same
  | cons step rest ih =>
    cases step with
    | entry key =>
      cases rest with
      | nil => exact put v h.entries key
      | cons next rest => exact set h.entries (ih (h.entries key))
    | item index =>
      simp only [Setting.putAt, modifyItem, h.items]
      exact .same

/-- One assignment. -/
theorem assign (h : Over base (some f) (some r)) (key : String) (v : Setting) :
    Over base (some (f.assign key v)) (some (r.assign key v)) :=
  h.putAt v (path (foldKey key))

/-! ## What stands at the end -/

/-- A value that is no table stands over whatever was there. -/
theorem eq_of_ne_table {v : Setting} (h : Over base (some v) value)
    (hv : ∀ entries, v ≠ .table entries) : value = some v := by
  cases h with
  | same => rfl
  | kept => exact absurd rfl (hv [])
  | tables => exact absurd rfl (hv _)

/-- Where nothing was put, nothing is new. -/
theorem eq_or_of_none (h : Over base none value) : value = none ∨ value = base := by
  cases h with
  | untouched => exact .inr rfl
  | same => exact .inl rfl

/-- Where a table was put, a table stands, or what was there. -/
theorem table_or {entries : List (String × Setting)} (h : Over base (some (.table entries)) value) :
    (∃ entries', value = some (.table entries')) ∨ value = base := by
  cases h with
  | same => exact .inl ⟨_, rfl⟩
  | tables => exact .inl ⟨_, rfl⟩
  | kept => exact .inr rfl

end Over

end ClusterLink.Setting
