/-! Finite maps kept as lists of entries in strictly increasing key order, so that two maps are
equal exactly when they are equal as data. `find?_insert` and `find?_erase` say what each write does
to every look-up, `mem_entries_iff` that the entries are the look-ups, and `ext_find?` that the
look-ups fix the map. -/

namespace ClusterLink

/-- A finite map from `κ` to `ν`; its entries stand in strictly increasing key order. -/
structure Dict (κ ν : Type) [Ord κ] where
  entries : List (κ × ν)
  sorted : entries.Pairwise fun a b => compare a.1 b.1 = .lt

namespace Dict

variable {κ ν μ : Type} [Ord κ]

theorem ext_entries {d d' : Dict κ ν} (h : d.entries = d'.entries) : d = d' := by
  cases d; cases d'; cases h; rfl

instance [DecidableEq κ] [DecidableEq ν] : DecidableEq (Dict κ ν) := fun a b =>
  if h : a.entries = b.entries then
    isTrue (by cases a; cases b; cases h; rfl)
  else
    isFalse fun e => h (e ▸ rfl)

instance [Repr κ] [Repr ν] : Repr (Dict κ ν) := ⟨fun d n => reprPrec d.entries n⟩

def empty : Dict κ ν := ⟨[], .nil⟩

instance : EmptyCollection (Dict κ ν) := ⟨empty⟩

instance : Inhabited (Dict κ ν) := ⟨∅⟩

/-- The keys, in increasing order. -/
def keys (d : Dict κ ν) : List κ := d.entries.map Prod.fst

/-- The values, in the order of their keys. -/
def values (d : Dict κ ν) : List ν := d.entries.map Prod.snd

def size (d : Dict κ ν) : Nat := d.entries.length

/-- Whether there is no key. -/
def isEmpty (d : Dict κ ν) : Bool := d.entries.isEmpty

/-- The value of the first entry whose key is `key`. -/
def lookup (key : κ) : List (κ × ν) → Option ν
  | [] => none
  | (k, v) :: rest => if compare key k = .eq then some v else lookup key rest

def find? (d : Dict κ ν) (key : κ) : Option ν := lookup key d.entries

/-- Whether there is a value under `key`. -/
def contains (d : Dict κ ν) (key : κ) : Bool := (d.find? key).isSome

/-- Puts an entry at its place in a sorted list, in the place of one with the same key. -/
def insertSorted (key : κ) (value : ν) : List (κ × ν) → List (κ × ν)
  | [] => [(key, value)]
  | (k, v) :: rest =>
    match compare key k with
    | .lt => (key, value) :: (k, v) :: rest
    | .eq => (key, value) :: rest
    | .gt => (k, v) :: insertSorted key value rest

/-- Every key of the new list is the new key or an old one. -/
theorem mem_insertSorted {key : κ} {value : ν} {l : List (κ × ν)} {e : κ × ν}
    (h : e ∈ insertSorted key value l) : e = (key, value) ∨ e ∈ l := by
  induction l with
  | nil => simpa [insertSorted] using h
  | cons head rest ih =>
    simp only [insertSorted] at h
    split at h <;> simp only [List.mem_cons] at h ⊢ <;> grind

section Writes

variable [Std.TransOrd κ]

theorem insertSorted_sorted (key : κ) (value : ν) {l : List (κ × ν)}
    (h : l.Pairwise fun a b => compare a.1 b.1 = .lt) :
    (insertSorted key value l).Pairwise fun a b => compare a.1 b.1 = .lt := by
  induction l with
  | nil => simp [insertSorted]
  | cons head rest ih =>
    obtain ⟨k, v⟩ := head
    rw [List.pairwise_cons] at h
    simp only [insertSorted]
    split
    next hlt =>
      refine List.pairwise_cons.2 ⟨fun e he => ?_, List.pairwise_cons.2 h⟩
      rcases List.mem_cons.1 he with rfl | he
      · exact hlt
      · exact Std.TransCmp.lt_trans hlt (h.1 e he)
    next heq =>
      exact List.pairwise_cons.2
        ⟨fun e he => Std.TransCmp.lt_of_eq_of_lt heq (h.1 e he), h.2⟩
    next hgt =>
      refine List.pairwise_cons.2 ⟨fun e he => ?_, ih h.2⟩
      rcases mem_insertSorted he with rfl | he
      · exact Std.OrientedCmp.lt_of_gt hgt
      · exact h.1 e he

/-- The map with `value` under `key`, whatever stood there before. -/
def insert (d : Dict κ ν) (key : κ) (value : ν) : Dict κ ν :=
  ⟨insertSorted key value d.entries, insertSorted_sorted key value d.sorted⟩

/-- The map of a list of entries; of entries with one key the last counts. -/
def ofList (l : List (κ × ν)) : Dict κ ν :=
  l.foldl (fun d e => d.insert e.1 e.2) ∅

end Writes

def erase (d : Dict κ ν) (key : κ) : Dict κ ν :=
  ⟨d.entries.filter fun e => compare key e.1 != .eq, d.sorted.filter _⟩

/-! ## Look-ups after a write -/

@[simp] theorem find?_empty (key : κ) : (∅ : Dict κ ν).find? key = none := rfl

section Lookups

variable [Std.LawfulEqOrd κ]

theorem lookup_insertSorted (key : κ) (value : ν) (x : κ) (l : List (κ × ν)) :
    lookup x (insertSorted key value l)
      = if compare x key = .eq then some value else lookup x l := by
  induction l with
  | nil => simp [insertSorted, lookup]
  | cons head rest ih =>
    obtain ⟨k, v⟩ := head
    simp only [insertSorted]
    split
    next => simp [lookup]
    next heq =>
      obtain rfl := Std.LawfulEqCmp.eq_of_compare heq
      simp only [lookup]
      split <;> simp_all
    next hgt =>
      simp only [lookup, ih]
      by_cases hx : compare x key = .eq
      · obtain rfl := Std.LawfulEqCmp.eq_of_compare hx
        simp [hgt]
      · simp [hx]

/-- A write shows under its own key and nowhere else. -/
@[simp] theorem find?_insert [Std.TransOrd κ] (d : Dict κ ν) (key : κ) (value : ν) (x : κ) :
    (d.insert key value).find? x = if compare x key = .eq then some value else d.find? x :=
  lookup_insertSorted key value x d.entries

theorem find?_insert_self [Std.TransOrd κ] (d : Dict κ ν) (key : κ) (value : ν) :
    (d.insert key value).find? key = some value := by
  simp

theorem find?_insert_of_ne [Std.TransOrd κ] (d : Dict κ ν) {key x : κ} (value : ν)
    (h : x ≠ key) : (d.insert key value).find? x = d.find? x := by
  simp [h]

theorem lookup_filter_ne (key x : κ) (l : List (κ × ν)) :
    lookup x (l.filter fun e => compare key e.1 != .eq)
      = if compare x key = .eq then none else lookup x l := by
  induction l with
  | nil => simp [lookup]
  | cons head rest ih =>
    obtain ⟨k, v⟩ := head
    by_cases hk : compare key k = .eq
    · obtain rfl := Std.LawfulEqCmp.eq_of_compare hk
      simp only [List.filter_cons, Std.ReflCmp.compare_self, bne_self_eq_false, Bool.false_eq_true,
        ↓reduceIte, ih, lookup]
      split <;> simp_all
    · simp only [List.filter_cons, bne_iff_ne, ne_eq, hk, not_false_eq_true, ↓reduceIte, lookup, ih]
      by_cases hx : compare x key = .eq
      · obtain rfl := Std.LawfulEqCmp.eq_of_compare hx
        simp [hk]
      · simp [hx]

/-- Erasing takes away the key's value and no other. -/
@[simp] theorem find?_erase (d : Dict κ ν) (key x : κ) :
    (d.erase key).find? x = if compare x key = .eq then none else d.find? x :=
  lookup_filter_ne key x d.entries

theorem find?_erase_self (d : Dict κ ν) (key : κ) : (d.erase key).find? key = none := by simp

theorem find?_erase_of_ne (d : Dict κ ν) {key x : κ} (h : x ≠ key) :
    (d.erase key).find? x = d.find? x := by
  simp [h]

theorem lookup_eq_some_iff {l : List (κ × ν)}
    (h : l.Pairwise fun a b => compare a.1 b.1 = .lt) (key : κ) (value : ν) :
    lookup key l = some value ↔ (key, value) ∈ l := by
  induction l with
  | nil => simp [lookup]
  | cons head rest ih =>
    obtain ⟨k, v⟩ := head
    rw [List.pairwise_cons] at h
    simp only [lookup, List.mem_cons, Prod.mk.injEq]
    by_cases hk : compare key k = .eq
    · obtain rfl := Std.LawfulEqCmp.eq_of_compare hk
      simp only [Std.ReflCmp.compare_self, ↓reduceIte, Option.some.injEq, true_and]
      constructor
      · rintro rfl; exact .inl rfl
      · rintro (rfl | hmem)
        · rfl
        · have := h.1 _ hmem
          simp [Std.ReflCmp.compare_self] at this
    · have hne : key ≠ k := fun e => hk (e ▸ Std.ReflCmp.compare_self)
      simp [hk, hne, ih h.2]

/-- The entries are exactly the look-ups that succeed. -/
theorem mem_entries_iff (d : Dict κ ν) (key : κ) (value : ν) :
    (key, value) ∈ d.entries ↔ d.find? key = some value :=
  (lookup_eq_some_iff d.sorted key value).symm

theorem mem_values_iff (d : Dict κ ν) (value : ν) :
    value ∈ d.values ↔ ∃ key, d.find? key = some value := by
  simp [values, mem_entries_iff]

/-- Two sorted lists with the same members are one list. -/
theorem eq_of_mem_iff [Std.TransOrd κ] {l l' : List (κ × ν)}
    (h : l.Pairwise fun a b => compare a.1 b.1 = .lt)
    (h' : l'.Pairwise fun a b => compare a.1 b.1 = .lt) (hm : ∀ e, e ∈ l ↔ e ∈ l') : l = l' := by
  induction l generalizing l' with
  | nil =>
    cases l' with
    | nil => rfl
    | cons b r => exact absurd ((hm b).2 (.head _)) (by simp)
  | cons a r ih =>
    cases l' with
    | nil => exact absurd ((hm a).1 (.head _)) (by simp)
    | cons b r' =>
      rw [List.pairwise_cons] at h h'
      have hab : a = b := by
        rcases List.mem_cons.1 ((hm a).1 (.head _)) with e | ha
        · exact e
        · rcases List.mem_cons.1 ((hm b).2 (.head _)) with e | hb
          · exact e.symm
          · have := Std.TransCmp.lt_trans (h.1 b hb) (h'.1 a ha)
            simp [Std.ReflCmp.compare_self] at this
      subst hab
      refine congrArg _ (ih h.2 h'.2 fun e => ⟨fun he => ?_, fun he => ?_⟩)
      · rcases List.mem_cons.1 ((hm e).1 (.tail _ he)) with rfl | h₁
        · have := h.1 e he
          simp [Std.ReflCmp.compare_self] at this
        · exact h₁
      · rcases List.mem_cons.1 ((hm e).2 (.tail _ he)) with rfl | h₁
        · have := h'.1 e he
          simp [Std.ReflCmp.compare_self] at this
        · exact h₁

/-- Maps with the same look-ups are equal. -/
theorem ext_find? [Std.TransOrd κ] {d d' : Dict κ ν} (h : ∀ key, d.find? key = d'.find? key) :
    d = d' :=
  ext_entries <| eq_of_mem_iff d.sorted d'.sorted fun e => by
    rw [mem_entries_iff, mem_entries_iff, h]

theorem insert_insert [Std.TransOrd κ] (d : Dict κ ν) (key : κ) (v w : ν) :
    (d.insert key v).insert key w = d.insert key w := by
  refine ext_find? fun x => ?_
  simp only [find?_insert]
  split <;> rfl

theorem insert_eq_self [Std.TransOrd κ] {d : Dict κ ν} {key : κ} {v : ν}
    (h : d.find? key = some v) : d.insert key v = d := by
  refine ext_find? fun x => ?_
  rw [find?_insert]
  split
  next hx => rw [Std.LawfulEqCmp.eq_of_compare hx, h]
  next => rfl

theorem erase_eq_self [Std.TransOrd κ] {d : Dict κ ν} {key : κ} (h : d.find? key = none) :
    d.erase key = d := by
  refine ext_find? fun x => ?_
  rw [find?_erase]
  split
  next hx => rw [Std.LawfulEqCmp.eq_of_compare hx, h]
  next => rfl

end Lookups

/-! ## Maps from their entries -/

theorem eq_empty_of_isEmpty {d : Dict κ ν} (h : d.isEmpty = true) : d = ∅ :=
  ext_entries (List.isEmpty_iff.1 h)

/-- A key beyond all others goes to the end. -/
theorem insertSorted_of_forall_lt [Std.OrientedOrd κ] {key : κ} {value : ν} {l : List (κ × ν)}
    (h : ∀ e ∈ l, compare e.1 key = .lt) : insertSorted key value l = l ++ [(key, value)] := by
  induction l with
  | nil => rfl
  | cons head rest ih =>
    obtain ⟨k, v⟩ := head
    have hgt : compare key k = .gt := Std.OrientedCmp.gt_of_lt (h (k, v) (.head _))
    simp [insertSorted, hgt, ih fun e he => h e (.tail _ he)]

/-- Entries beyond those of a map, in increasing order, are appended to them. -/
theorem entries_foldl_insert [Std.TransOrd κ] {d : Dict κ ν} {l : List (κ × ν)}
    (h : (d.entries ++ l).Pairwise fun a b => compare a.1 b.1 = .lt) :
    (l.foldl (fun d e => d.insert e.1 e.2) d).entries = d.entries ++ l := by
  induction l generalizing d with
  | nil => simp
  | cons e l ih =>
    have hlt : ∀ e' ∈ d.entries, compare e'.1 e.1 = .lt :=
      fun e' he' => (List.pairwise_append.1 h).2.2 e' he' e (.head _)
    have hins : (d.insert e.1 e.2).entries = d.entries ++ [e] := insertSorted_of_forall_lt hlt
    rw [List.foldl_cons, ih (by simpa [hins] using h), hins, List.append_assoc,
      List.singleton_append]

/-- A map is the map of its entries. -/
theorem ofList_entries [Std.TransOrd κ] (d : Dict κ ν) : ofList d.entries = d :=
  ext_entries (entries_foldl_insert (d := ∅) d.sorted)

end Dict

end ClusterLink
