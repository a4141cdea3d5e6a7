import ClusterLink.Watch.Registry

/-! The registries of watches: which watches they take, what a write leaves, and whom a change
concerns. -/

namespace ClusterLink

theorem Dict.isSome_find?_foldl [Ord κ] [Std.TransOrd κ] [Std.LawfulEqOrd κ] (l : List (κ × ν))
    (d : Dict κ ν) (key : κ) :
    ((l.foldl (fun d e => d.insert e.1 e.2) d).find? key).isSome ↔
      (d.find? key).isSome ∨ key ∈ l.map Prod.fst := by
  induction l generalizing d with
  | nil => simp
  | cons e l ih =>
    rw [List.foldl_cons, ih, find?_insert]
    by_cases h : compare key e.1 = .eq
    · simp [Std.LawfulEqCmp.eq_of_compare h]
    · have hne : key ≠ e.1 := fun he => h (he ▸ Std.ReflCmp.compare_self)
      simp [h, hne]

theorem Dict.mem_keys [Ord κ] [Std.LawfulEqOrd κ] (d : Dict κ ν) (key : κ) :
    key ∈ d.keys ↔ (d.find? key).isSome := by
  simp [keys, mem_entries_iff, Option.isSome_iff_exists]

theorem Key.mem_sortUnique {key : Key} {keys : List Key} : key ∈ sortUnique keys ↔ key ∈ keys := by
  rw [sortUnique, Dict.mem_keys, Dict.ofList, Dict.isSome_find?_foldl]
  simp [Function.comp_def]

/-- Whether a registry takes a watch. -/
def Watch.isComplete (w : Watch) : Bool :=
  !w.name.isEmpty && w.watched.isComplete && w.watcher.isComplete

namespace Registry

theorem add_of_complete {w : Watch} (h : w.isComplete) (r : Registry) :
    r.add w = .ok (r.insert w.name w) := by
  simp only [Watch.isComplete, Bool.and_eq_true, Bool.not_eq_true'] at h
  simp [Registry.add, h]

theorem complete_of_add {r r' : Registry} {w : Watch} (h : r.add w = .ok r') :
    w.isComplete ∧ r' = r.insert w.name w := by
  unfold Registry.add at h
  repeat' split at h
  all_goals simp_all [Watch.isComplete]

theorem incomplete_of_add {r : Registry} {w : Watch} {e : WatchError}
    (h : r.add w = .error e) : ¬w.isComplete := by
  intro hw
  rw [add_of_complete hw] at h
  cases h

/-- Whether and why a watch is refused does not depend on the registry. -/
theorem add_eq_error {r : Registry} {w : Watch} {e : WatchError} (h : r.add w = .error e)
    (r' : Registry) : r'.add w = .error e := by
  unfold Registry.add at h ⊢
  repeat' split at h
  all_goals simp_all

/-- A change concerns those who have a watch on it. -/
theorem mem_watchersOf {r : Registry} {watched key : Key} : key ∈ r.watchersOf watched ↔
    ∃ name w, r.find? name = some w ∧ w.watched = watched ∧ w.watcher = key := by
  simp only [watchersOf, Key.mem_sortUnique, List.mem_map, List.mem_filter, registrations,
    Dict.mem_values_iff, decide_eq_true_eq]
  constructor
  · rintro ⟨w, ⟨⟨name, hw⟩, hwatched⟩, hkey⟩
    exact ⟨name, w, hw, hwatched, hkey⟩
  · rintro ⟨name, w, hw, hwatched, hkey⟩
    exact ⟨w, ⟨⟨name, hw⟩, hwatched⟩, hkey⟩

end Registry

/-- The name of an association's watch in the registry of a side. -/
def Side.watchName : Side → Key → String
  | .elasticsearch => Watch.elasticsearchName
  | .kibana => Watch.kibanaName

/-- The keys that occur give their watches different names. -/
def Side.NamesApart (Occurs : Key → Prop) : Prop :=
  ∀ (side : Side) (j k : Key), Occurs j → Occurs k → side.watchName j = side.watchName k → j = k

namespace Watches

@[simp] theorem get_set_self (w : Watches) (side : Side) (r : Registry) :
    (w.set side r).get side = r := by
  cases side <;> rfl

theorem get_set_of_ne (w : Watches) {side other : Side} (h : other ≠ side)
    (r : Registry) : (w.set side r).get other = w.get other := by
  cases side <;> cases other <;> first | rfl | exact absurd rfl h

theorem watchersOf_kind (w : Watches) (side : Side) (key : Key) :
    w.watchersOf side.kind key = (w.get side).watchersOf key := by
  cases side <;> rfl

end Watches

end ClusterLink
