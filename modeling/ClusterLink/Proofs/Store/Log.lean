import ClusterLink.Proofs.Store.Reachable

/-! The log of changes is complete: what stands under a key differs after an edit or a call only if
the log has an event about it since. -/

namespace ClusterLink

namespace EventLog

/-- There is an event about an object from a place on. -/
def Tells (log : EventLog) (place : Nat) (kind : Kind) (key : Key) : Prop :=
  ∃ i : Nat, ∃ e, place ≤ i ∧ log.events[i]? = some e ∧ e.kind = kind ∧ e.key = key

/-- A log goes on another. -/
def Extends (log' log : EventLog) : Prop :=
  ∀ ⦃i : Nat⦄ ⦃e⦄, log.events[i]? = some e → log'.events[i]? = some e

variable {log log' : EventLog} {kind : Kind} {key : Key}

theorem Extends.refl (log : EventLog) : log.Extends log := fun _ _ h => h

theorem Extends.size_le (h : log'.Extends log) : log.size ≤ log'.size := by
  unfold size
  refine Nat.le_of_not_lt fun hlt => ?_
  have hlast := h (Array.getElem?_eq_getElem hlt)
  simp at hlast

theorem Extends.tells (h : log'.Extends log) {place : Nat} (ht : log.Tells place kind key) :
    log'.Tells place kind key :=
  let ⟨i, e, hi, he, hkind⟩ := ht
  ⟨i, e, hi, h he, hkind⟩

theorem Tells.mono {place place' : Nat} (h : log.Tells place kind key) (hp : place' ≤ place) :
    log.Tells place' kind key :=
  let ⟨i, e, hi, he⟩ := h
  ⟨i, e, Nat.le_trans hp hi, he⟩

theorem extends_append (log : EventLog) (e : Event) : (log.append e).Extends log := by
  intro i x hi
  rw [append, Array.getElem?_push]
  split
  next hn => simp [hn] at hi
  next => exact hi

theorem tells_append (log : EventLog) (e : Event) :
    (log.append e).Tells log.size e.kind e.key :=
  ⟨log.size, e, Nat.le_refl _, by simp [append, size], rfl, rfl⟩

/-- What a reader gets next: that it fell behind by so many events, or the event at its place. -/
theorem next?_cases {place place' : Nat} {received : Received}
    (h : log.next? place = some (received, place')) :
    (∃ missed, received = .lagged missed ∧ place' = place + missed) ∧ place' ≤ log.size ∨
      ∃ e, received = .event e ∧ log.events[place]? = some e ∧ place' = place + 1 := by
  unfold next? at h
  split at h
  next =>
    cases h
    exact .inl ⟨⟨_, rfl, by omega⟩, Nat.sub_le ..⟩
  next =>
    obtain ⟨e, he, h⟩ := Option.map_eq_some_iff.1 h
    cases h
    exact .inr ⟨e, rfl, he, rfl⟩

/-- A reader for whom there is nothing is at the end. -/
theorem size_le_of_next? {place : Nat} (h : log.next? place = none) : log.size ≤ place := by
  unfold next? at h
  split at h
  next => cases h
  next => exact Array.getElem?_eq_none_iff.1 (Option.map_eq_none_iff.1 h)

theorem Tells.next {place : Nat} {e : Event} (h : log.Tells place kind key)
    (he : log.events[place]? = some e) :
    (e.kind = kind ∧ e.key = key) ∨ log.Tells (place + 1) kind key := by
  obtain ⟨i, e', hi, he', hk⟩ := h
  rcases Nat.eq_or_lt_of_le hi with rfl | hlt
  · cases he.symm.trans he'
    exact .inl hk
  · exact .inr ⟨i, e', hlt, he', hk⟩

theorem succ_le_size {place : Nat} {e : Event} (h : log.events[place]? = some e) :
    place + 1 ≤ log.size :=
  (Array.getElem?_eq_some_iff.1 h).1

end EventLog

namespace Store

/-- Every change from a store to another is in the log of the latter. -/
structure Logs (s s' : Store) : Prop where
  kept : s'.log.Extends s.log
  associations : ∀ key, s'.associations.find? key = s.associations.find? key ∨
    s'.log.Tells s.log.size .association key
  elasticsearches : ∀ key, s'.elasticsearches.find? key = s.elasticsearches.find? key ∨
    s'.log.Tells s.log.size .elasticsearch key
  kibanas : ∀ key, s'.kibanas.find? key = s.kibanas.find? key ∨
    s'.log.Tells s.log.size .kibana key

variable {s s' : Store}

theorem Logs.of_eq (hlog : s'.log = s.log) (ha : s'.associations = s.associations)
    (hes : s'.elasticsearches = s.elasticsearches) (hkb : s'.kibanas = s.kibanas) : s.Logs s' where
  kept := hlog ▸ .refl _
  associations key := .inl (congrArg (Dict.find? · key) ha)
  elasticsearches key := .inl (congrArg (Dict.find? · key) hes)
  kibanas key := .inl (congrArg (Dict.find? · key) hkb)

/-- A change of what stands under one key, and the event about it. -/
theorem logs_emit {s₁ : Store} {kind : Kind} {place : Key} (action : Action)
    (hlog : s₁.log = s.log)
    (ha : ∀ key, s₁.associations.find? key = s.associations.find? key ∨
      kind = .association ∧ key = place)
    (hes : ∀ key, s₁.elasticsearches.find? key = s.elasticsearches.find? key ∨
      kind = .elasticsearch ∧ key = place)
    (hkb : ∀ key, s₁.kibanas.find? key = s.kibanas.find? key ∨ kind = .kibana ∧ key = place) :
    s.Logs (s₁.emit kind place action) := by
  have ht : (s₁.emit kind place action).log.Tells s.log.size kind place :=
    hlog ▸ s₁.log.tells_append ⟨kind, place, action⟩
  refine ⟨hlog ▸ EventLog.extends_append _ _, fun key => (ha key).imp_right ?_,
    fun key => (hes key).imp_right ?_, fun key => (hkb key).imp_right ?_⟩
  all_goals
    rintro ⟨rfl, rfl⟩
    exact ht

section

variable {R : Type} [Resource R]

theorem find?_apply_or [LawfulResource R] (t : Table R) (fresh : Uid) (incoming : R) (key : Key) :
    (t.apply fresh incoming).2.find? key = t.find? key ∨
      key = Resource.key (t.apply fresh incoming).1 := by
  rw [Table.find?_apply, Table.key_apply]
  split
  next h => exact .inr h
  next => exact .inl rfl

omit [Resource R] in
theorem find?_erase_or (t : Table R) (place key : Key) :
    (t.erase place).find? key = t.find? key ∨ key = place := by
  by_cases h : key = place
  · exact .inr h
  · exact .inl (Dict.find?_erase_of_ne _ h)

theorem find?_put_or (t : Table R) {place place' : Key} (h : place' = place) (r : R) (key : Key) :
    (t.put place r).find? key = t.find? key ∨ key = place' := by
  by_cases hk : key = place
  · exact .inr (hk.trans h.symm)
  · exact .inl (Table.find?_put_of_ne hk r)

end

theorem deleteAssociation_logs (s : Store) (now : Instant) (place : Key) :
    s.Logs (s.deleteAssociation now place).2 := by
  unfold deleteAssociation
  split
  next => exact .of_eq rfl rfl rfl rfl
  next stored h =>
    dsimp only
    repeat' split
    · exact logs_emit _ rfl (fun key => (find?_erase_or _ place key).imp_right (⟨rfl, ·⟩))
        (fun _ => .inl rfl) fun _ => .inl rfl
    · exact logs_emit _ rfl (fun _ => .inl rfl) (fun _ => .inl rfl) fun _ => .inl rfl
    · refine logs_emit _ rfl (fun key => ?_) (fun _ => .inl rfl) fun _ => .inl rfl
      by_cases hk : key = place
      · exact .inr ⟨rfl, hk⟩
      · exact .inl (Dict.find?_insert_of_ne _ _ hk)

/-- No edit goes unnoticed. -/
theorem edit_logs (s : Store) (e : Edit) : s.Logs (s.edit e) := by
  cases e with
  | apply o =>
    cases o with
    | association a =>
      exact logs_emit _ rfl (fun key => (find?_apply_or _ _ a key).imp_right (⟨rfl, ·⟩))
        (fun _ => .inl rfl) fun _ => .inl rfl
    | elasticsearch es =>
      exact logs_emit _ rfl (fun _ => .inl rfl)
        (fun key => (find?_apply_or _ _ es key).imp_right (⟨rfl, ·⟩)) fun _ => .inl rfl
    | kibana kb =>
      exact logs_emit _ rfl (fun _ => .inl rfl) (fun _ => .inl rfl)
        fun key => (find?_apply_or _ _ kb key).imp_right (⟨rfl, ·⟩)
    | secret secret =>
      exact logs_emit _ rfl (fun _ => .inl rfl) (fun _ => .inl rfl) fun _ => .inl rfl
  | delete kind now place =>
    cases kind with
    | association => exact s.deleteAssociation_logs now place
    | elasticsearch =>
      simp only [edit, deleteElasticsearch]
      split
      · exact logs_emit _ rfl (fun _ => .inl rfl)
          (fun key => (find?_erase_or _ place key).imp_right (⟨rfl, ·⟩)) fun _ => .inl rfl
      · exact .of_eq rfl rfl rfl rfl
    | kibana =>
      simp only [edit, deleteKibana]
      split
      · exact logs_emit _ rfl (fun _ => .inl rfl) (fun _ => .inl rfl)
          fun key => (find?_erase_or _ place key).imp_right (⟨rfl, ·⟩)
      · exact .of_eq rfl rfl rfl rfl
    | secret =>
      simp only [edit, deleteSecret]
      split
      · exact logs_emit _ rfl (fun _ => .inl rfl) (fun _ => .inl rfl) fun _ => .inl rfl
      · exact .of_eq rfl rfl rfl rfl

theorem logs_putAssociation (s : Store) {key : Key} {a : Association} (h : a.key = key)
    (writes : WriteCounts) : s.Logs (s.putAssociation key a writes) :=
  logs_emit _ rfl (fun x => (find?_put_or _ h a x).imp_right (⟨rfl, ·⟩)) (fun _ => .inl rfl)
    fun _ => .inl rfl

theorem logs_putKibana (s : Store) {key : Key} {kb : Kibana} (h : kb.key = key)
    (writes : WriteCounts) : s.Logs (s.putKibana key kb writes) :=
  logs_emit _ rfl (fun _ => .inl rfl) (fun _ => .inl rfl)
    fun x => (find?_put_or _ h kb x).imp_right (⟨rfl, ·⟩)

/-- No call goes unnoticed. -/
theorem Called.logs (h : s.Called s') (hs : s.Keyed) : s.Logs s' := by
  cases h with
  | same => exact .of_eq rfl rfl rfl rfl
  | association ha w => exact s.logs_putAssociation (hs.associations.key_rewritten ha) w
  | status ha w => exact s.logs_putAssociation (hs.associations.key_restated ha) w
  | kibana hk w => exact s.logs_putKibana (hs.kibanas.key_rewritten_kibana hk) w

/-! ## What a write tells -/

theorem tells_putAssociation (s : Store) {key : Key} {a : Association} (h : a.key = key)
    (writes : WriteCounts) :
    (s.putAssociation key a writes).log.Tells s.log.size .association key :=
  h ▸ s.log.tells_append ⟨.association, a.key, Table.actionOf a⟩

theorem tells_putKibana (s : Store) {key : Key} {kb : Kibana} (h : kb.key = key)
    (writes : WriteCounts) : (s.putKibana key kb writes).log.Tells s.log.size .kibana key :=
  h ▸ s.log.tells_append ⟨.kibana, kb.key, Table.actionOf kb⟩

end Store

end ClusterLink
